import DawScript.Proofs.ReadingCalls
import DawScript.Proofs.Visits

/-!
# Filters

A lenient visit whose callback only reads has the results of the items that do not fail and reports
the others (`exec_visitFrom_of_reads`). So a filter by a condition keeps the items that the
condition keeps (`exec_filtered_list`), and two filters in a row are the filter by both conditions,
in either order (`filters_fuse_and_commute`), although they report different items.
-/

set_option autoImplicit false

namespace DawScript

/-! ## Visits that only read -/

/-- The reports of the items that fail, from a position on. -/
def reportsOf (c : Combinator) (outcome : Value → Except Fault Value) :
    Nat → List Value → List SkippedItem
  | _, [] => []
  | position, item :: rest =>
    match outcome item with
    | .ok _ => reportsOf c outcome (position + 1) rest
    | .error fault => ⟨c.name, position, fault.message⟩ :: reportsOf c outcome (position + 1) rest

/-- The items that do not fail with their results. -/
def resultsOf (outcome : Value → Except Fault Value) : List Value → List (Value × Value)
  | [] => []
  | item :: rest =>
    match outcome item with
    | .ok v => (item, v) :: resultsOf outcome rest
    | .error _ => resultsOf outcome rest

section Visit

variable {env : Env} {c : Combinator} {name : String} {f : Callback} {s : State}
  {outcome : Value → Except Fault Value}

theorem reportsOf_eq_nil {items : List Value} (h : ∀ item ∈ items, ∃ v, outcome item = .ok v)
    (position : Nat) : reportsOf c outcome position items = [] := by
  induction items generalizing position with
  | nil => rfl
  | cons item rest ih =>
    obtain ⟨⟨v, hv⟩, hrest⟩ := List.forall_mem_cons.1 h
    rw [reportsOf, hv]
    exact ih hrest (position + 1)

/-- A lenient visit with a callback that only reads, and sees no reports, has the results of the
items that do not fail and adds the reports of the others. -/
theorem exec_visitFrom_of_reads (hlenient : env.config.strict = false)
    (hf : ∀ item before, (f ⟨name, item⟩).exec (s.reporting before) =
      (outcome item, s.reporting before)) (items : List Value) :
    ∀ position before, (visitFrom env c name f position items).exec (s.reporting before) =
      (.ok (resultsOf outcome items),
        s.reporting (before ++ (reportsOf c outcome position items).toArray)) := by
  induction items with
  | nil =>
    intro position before
    rw [reportsOf, Array.append_empty]
    rfl
  | cons item rest ih =>
    intro position before
    have hsettle := Run.exec_settle env c position (f ⟨name, item⟩) (s.reporting before)
    rw [hf item before] at hsettle
    rw [visitFrom, reportsOf, resultsOf]
    cases houtcome : outcome item with
    | ok v =>
      rw [houtcome] at hsettle
      rw [Run.exec_bind_ok hsettle, Run.exec_bind_ok (ih (position + 1) before)]
      rfl
    | error fault =>
      -- the report of the item comes before those of the items after it
      let report : SkippedItem := ⟨c.name, position, fault.message⟩
      let others := reportsOf c outcome (position + 1) rest
      have hpush : (s.reporting before).skip report = s.reporting (before.push report) := by
        simp only [State.skip, State.reporting, Array.push_append]
      have hcons : before.push report ++ others.toArray = before ++ (report :: others).toArray := by
        simp
      simp only [houtcome, hlenient, Bool.false_eq_true, if_false] at hsettle
      rw [hpush] at hsettle
      rw [Run.exec_bind_ok hsettle, Run.exec_bind_ok (ih (position + 1) (before.push report)),
        hcons]
      rfl

end Visit

/-! ## Conditions -/

namespace Expr

/-- A filter of what an expression evaluates to. -/
def filtered (source condition : Expr) : Expr :=
  .call "filter" [⟨none, source⟩, ⟨none, condition⟩]

/-- An expression without calls that is no function reference. -/
structure Condition (p : Expr) : Prop where
  plain : p.calls = []
  expression : ∀ inner own, p ≠ .function inner own

theorem Condition.and {p q : Expr} (hp : p.Condition) (hq : q.Condition) :
    (Expr.binary .and p q).Condition where
  plain := by rw [calls, hp.plain, hq.plain, List.append_nil]
  expression := nofun

end Expr

/-- What a condition has to say about an item. -/
def verdict (env : Env) (s : State) (p : Expr) (item : Value) : Except Fault Value :=
  ((evaluate env p (some ⟨"item", item⟩)).exec s).1

/-- Whether a condition keeps an item: it does not fail for it and counts as true. -/
def keeps (env : Env) (s : State) (p : Expr) (item : Value) : Bool :=
  (verdict env s p item).toOption.any Value.isTruthy

section Condition

variable {env : Env} {s : State} {p q : Expr}

/-- A condition does not see what is passed over. -/
theorem exec_condition (hp : p.Condition) (item : Value) (before : Array SkippedItem) :
    (evaluate env p (some ⟨"item", item⟩)).exec (s.reporting before) =
      (verdict env s p item, s.reporting before) := by
  have halike : Run.ReadAlike s (s.reporting before) (evaluate env p (some ⟨"item", item⟩))
      (evaluate env p (some ⟨"item", item⟩)) := evaluate_readAlike hp.plain fun _ _ => rfl
  obtain ⟨outcome, hexec, hexec'⟩ := halike
  rw [hexec', verdict, hexec]

theorem exec_verdict (hp : p.Condition) (item : Value) :
    (evaluate env p (some ⟨"item", item⟩)).exec s = (verdict env s p item, s) :=
  Prod.ext rfl (evaluate_reads hp.plain s)

/-- What fails for a condition is not kept. -/
theorem exists_verdict_of_keeps {item : Value} (h : keeps env s p item = true) :
    ∃ v, verdict env s p item = .ok v := by
  rw [keeps] at h
  cases hverdict : verdict env s p item with
  | ok v => exact ⟨v, rfl⟩
  | error fault =>
    rw [hverdict] at h
    cases h

/-- Both operands of `and` are evaluated, and an item is kept if both keep it. -/
theorem keeps_and (hp : p.Condition) (hq : q.Condition) (item : Value) :
    keeps env s (.binary .and p q) item = (keeps env s p item && keeps env s q item) := by
  have hleft : (evaluate env p (some ⟨"item", item⟩)).exec s = _ := exec_verdict hp item
  have hright : (evaluate env q (some ⟨"item", item⟩)).exec s = _ := exec_verdict hq item
  cases hl : verdict env s p item with
  | error fault =>
    rw [hl] at hleft
    have hand : verdict env s (.binary .and p q) item = .error fault := by
      rw [verdict, evaluate, Run.exec_bind_error hleft]
    rw [keeps, keeps, hand, hl]
    rfl
  | ok l =>
    rw [hl] at hleft
    cases hr : verdict env s q item with
    | error fault =>
      rw [hr] at hright
      have hand : verdict env s (.binary .and p q) item = .error fault := by
        rw [verdict, evaluate, Run.exec_bind_ok hleft, Run.exec_bind_error hright]
      rw [keeps, keeps, keeps, hand, hl, hr]
      exact (Bool.and_false _).symm
    | ok r =>
      rw [hr] at hright
      have hand : verdict env s (.binary .and p q) item =
          .ok (.bool (l.isTruthy && r.isTruthy)) := by
        rw [verdict, evaluate, Run.exec_bind_ok hleft, Run.exec_bind_ok hright]
        rfl
      rw [keeps, keeps, keeps, hand, hl, hr]
      rfl

/-- The items of which the result counts as true are those that the condition keeps. -/
theorem collect_resultsOf (items : List Value) :
    Combinator.filter.collect (resultsOf (verdict env s p) items) =
      .list (items.filter (keeps env s p)) := by
  rw [Combinator.collect]
  congr 1
  induction items with
  | nil => rfl
  | cons item rest ih =>
    rw [resultsOf, List.filter_cons, keeps]
    cases verdict env s p item with
    | error fault => exact ih
    | ok v =>
      change List.map Prod.fst (List.filter _ ((item, v) :: _)) =
        if v.isTruthy = true then item :: _ else _
      rw [List.filter_cons, ← ih]
      cases v.isTruthy <;> rfl

end Condition

/-! ## Filters -/

section Filter

variable {env : Env} {scope : Option Binding} {s : State} {source p q : Expr}

/-- A filter by a condition visits the items of its collection. -/
theorem evaluate_filtered (hname : source.name? = none) (hp : p.Condition) :
    evaluate env (source.filtered p) scope = tryCatch (do
        let (items, itemName) ← evaluate env source scope >>= itemsOf "item"
        let visited ← visit env .filter itemName (fun b => evaluate env p (some b)) items
        return Combinator.filter.collect visited) fun fault =>
      throw (fault.within "filter" (argumentsText [⟨none, source⟩, ⟨none, p⟩])) := by
  have hcall : VisitCall env .filter "filter" [⟨none, source⟩, ⟨none, p⟩] p source
      fun b => evaluate env p (some b) :=
    ⟨⟨_, "predicate", ⟨rfl, rfl⟩, rfl, rfl, rfl⟩, (callback_eq_ok_iff hp.expression).2 rfl⟩
  have hitems : collection (meaning env source) scope =
      evaluate env source scope >>= itemsOf "item" := by
    rw [collection_eq, show (meaning env source).source.name? = none from hname]
    rfl
  rw [Expr.filtered, evaluate_visitCall hcall, hitems]

/-- A filter of a list keeps the items that the condition keeps and reports those for which it
fails. -/
theorem exec_filtered_list (hlenient : env.config.strict = false) (hname : source.name? = none)
    (hp : p.Condition) {items : List Value} {new : Array SkippedItem}
    (h : (evaluate env source scope).exec s = (.ok (.list items), s.reporting new)) :
    (evaluate env (source.filtered p) scope).exec s =
      (.ok (.list (items.filter (keeps env s p))),
        s.reporting (new ++ (reportsOf .filter (verdict env s p) 0 items).toArray)) := by
  have hitems : (evaluate env source scope >>= itemsOf "item").exec s =
      (.ok (items, "item"), s.reporting new) := (Run.exec_bind_ok h _).trans rfl
  have hvisit : (visit env .filter "item" (fun b => evaluate env p (some b)) items).exec
      (s.reporting new) = _ :=
    exec_visitFrom_of_reads hlenient (fun item before => exec_condition hp item before) items 0 new
  rw [evaluate_filtered hname hp, Run.exec_within, Run.exec_bind_ok hitems,
    Run.exec_bind_ok hvisit, ← collect_resultsOf]
  rfl

/-- A filter of what is no list is a fault, as is a filter of a fault. -/
theorem exec_filtered_error (hname : source.name? = none) (hp : p.Condition) {t : State}
    {fault : Fault}
    (h : (evaluate env source scope >>= itemsOf "item").exec s = (.error fault, t)) :
    (evaluate env (source.filtered p) scope).exec s =
      (.error (fault.within "filter" (argumentsText [⟨none, source⟩, ⟨none, p⟩])), t) := by
  rw [evaluate_filtered hname hp, Run.exec_within, Run.exec_bind_error h]
  rfl

/-! ## Filters in a row -/

/-- What a filter makes of a collection: the items that it keeps, or the root of the fault. -/
def filterOf (keep : Value → Bool) (value : Except Fault Value) : Except Fault Value :=
  match value with
  | .ok (.list items) => .ok (.list (items.filter keep))
  | .ok v => .error (.notASequence v.kind)
  | .error fault => .error fault.root

theorem filterOf_mapError_root (keep : Value → Bool) (value : Except Fault Value) :
    filterOf keep (value.mapError Fault.root) = filterOf keep value := by
  cases value with
  | ok v => rfl
  | error fault => exact congrArg Except.error fault.root_root

/-- A filter of what a filter has made keeps what both keep. -/
theorem filterOf_filterOf (keep also : Value → Bool) (value : Except Fault Value) :
    filterOf also (filterOf keep value) = filterOf (fun item => keep item && also item) value := by
  cases value with
  | error fault => exact congrArg Except.error fault.root_root
  | ok v =>
    cases v with
    | list items =>
      simp only [filterOf, List.filter_filter, Bool.and_comm]
    | _ => rfl

/-- What a collection evaluates to is a list, or a fault to every filter. -/
theorem list_or_fault {value : Except Fault Value} {t : State}
    (h : (evaluate env source scope).exec s = (value, t)) :
    (∃ items, value = .ok (.list items)) ∨
      ∃ fault, (evaluate env source scope >>= itemsOf "item").exec s = (.error fault, t) ∧
        ∀ keep, filterOf keep value = .error fault.root := by
  cases value with
  | error fault => exact .inr ⟨fault, Run.exec_bind_error h _, fun _ => rfl⟩
  | ok v =>
    cases v with
    | list items => exact .inl ⟨items, rfl⟩
    | _ => exact .inr ⟨_, (Run.exec_bind_ok h _).trans rfl, fun _ => rfl⟩

/-- A filter by a condition adds reports, and its result is that of the filter of its collection up
to the calls that the fault names. -/
theorem exec_filtered (hlenient : env.config.strict = false) (hname : source.name? = none)
    (hp : p.Condition) {value : Except Fault Value} {new : Array SkippedItem}
    (h : (evaluate env source scope).exec s = (value, s.reporting new)) :
    ∃ result more, (evaluate env (source.filtered p) scope).exec s = (result, s.reporting more) ∧
      result.mapError Fault.root = filterOf (keeps env s p) value := by
  rcases list_or_fault h with ⟨items, rfl⟩ | ⟨fault, hfault, hroot⟩
  · exact ⟨_, _, exec_filtered_list hlenient hname hp h, rfl⟩
  · refine ⟨_, new, exec_filtered_error hname hp hfault, ?_⟩
    rw [hroot]
    exact congrArg Except.error (Fault.root_within _ _ _)

/-- A filter by a condition of what it has kept keeps all of it and reports nothing. -/
theorem exec_filtered_filtered (hlenient : env.config.strict = false)
    (hname : source.name? = none) (hp : p.Condition) {value : Except Fault Value}
    {new : Array SkippedItem}
    (h : (evaluate env source scope).exec s = (value, s.reporting new)) :
    (evaluate env ((source.filtered p).filtered p) scope).exec s =
      (evaluate env (source.filtered p) scope).exec s := by
  rcases list_or_fault h with ⟨items, rfl⟩ | ⟨fault, hfault, -⟩
  · have hinner := exec_filtered_list hlenient hname hp h
    have hreports : reportsOf .filter (verdict env s p) 0 (items.filter (keeps env s p)) = [] := by
      apply reportsOf_eq_nil
      intro item hitem
      exact exists_verdict_of_keeps (List.mem_filter.1 hitem).2
    rw [exec_filtered_list hlenient rfl hp hinner, hinner, hreports, Array.append_empty,
      List.filter_filter]
    simp only [Bool.and_self]
  · -- the fault names the inner call, so the outer one leaves it as it is
    have hinner := exec_filtered_error hname hp hfault
    rw [exec_filtered_error rfl hp (Run.exec_bind_error hinner _), hinner, Fault.within_within]

end Filter

/-! ## Main result -/

/-- Filters fuse and commute. Of what an expression without calls evaluates to, a lenient run makes
the same by filtering it by one condition and then by another, in either order, and by filtering it
once by both: the list of the items that both keep, or a fault with the same root. Only the items
passed over change. To filter once more by the same condition makes no difference at all. -/
theorem filters_fuse_and_commute (env : Env) (hlenient : env.config.strict = false) {e p q : Expr}
    (hname : e.name? = none) (hplain : e.calls = []) (hp : p.Condition) (hq : q.Condition)
    (scope : Option Binding) (s : State) :
    (∀ x ∈ [(e.filtered p).filtered q, (e.filtered q).filtered p, e.filtered (.binary .and p q)],
      ∃ result new, (evaluate env x scope).exec s = (result, s.reporting new) ∧
        result.mapError Fault.root = filterOf (fun item => keeps env s p item && keeps env s q item)
          ((evaluate env e scope).exec s).1) ∧
    (evaluate env ((e.filtered p).filtered p) scope).exec s =
      (evaluate env (e.filtered p) scope).exec s := by
  have hsource : (evaluate env e scope).exec s =
      (((evaluate env e scope).exec s).1, s.reporting #[]) := by
    rw [State.reporting_empty]
    exact Prod.ext rfl (evaluate_reads hplain s)
  have hrow {c d : Expr} (hc : c.Condition) (hd : d.Condition) :
      ∃ result new, (evaluate env ((e.filtered c).filtered d) scope).exec s =
          (result, s.reporting new) ∧
        result.mapError Fault.root = filterOf (fun item => keeps env s c item && keeps env s d item)
          ((evaluate env e scope).exec s).1 := by
    obtain ⟨inner, new, hinner, hroot⟩ := exec_filtered hlenient hname hc hsource
    obtain ⟨result, more, hexec, hresult⟩ := exec_filtered hlenient rfl hd hinner
    refine ⟨result, more, hexec, ?_⟩
    rw [hresult, ← filterOf_mapError_root, hroot, filterOf_filterOf]
  refine ⟨?_, exec_filtered_filtered hlenient hname hp hsource⟩
  intro x hx
  simp only [List.mem_cons, List.not_mem_nil, or_false] at hx
  rcases hx with rfl | rfl | rfl
  · exact hrow hp hq
  · simp only [Bool.and_comm (keeps env s p _)]
    exact hrow hq hp
  · simp only [← keeps_and hp hq]
    exact exec_filtered hlenient hname (hp.and hq) hsource

/-- Numbers other than one and other than two: each filter passes over the text. -/
theorem filter_numbersWithText :
    let differs (n : Int64) : Expr := .binary .sub (.name "item") (.literal (.int n))
    let numbers : Expr := .list ([.int 1, .string "high", .int 2, .int 3].map .literal)
    let start : State := .fresh #[]
    (∀ x ∈ [(numbers.filtered (differs 1)).filtered (differs 2),
        (numbers.filtered (differs 2)).filtered (differs 1),
        numbers.filtered (.binary .and (differs 1) (differs 2))],
      ∃ new, (evaluate ⟨none, {}⟩ x none).exec start =
        (.ok (.list [.int 3]), start.reporting new)) ∧
    (evaluate ⟨none, {}⟩ ((numbers.filtered (differs 1)).filtered (differs 1)) none).exec start =
      (evaluate ⟨none, {}⟩ (numbers.filtered (differs 1)) none).exec start := by
  intro differs numbers start
  have hcondition (n : Int64) : (differs n).Condition := ⟨rfl, nofun⟩
  obtain ⟨hfused, htwice⟩ := filters_fuse_and_commute ⟨none, {}⟩ rfl (e := numbers) rfl rfl
    (hcondition 1) (hcondition 2) none start
  refine ⟨?_, htwice⟩
  intro x hx
  obtain ⟨result, new, hexec, hroot⟩ := hfused x hx
  have hresult : result.mapError Fault.root = .ok (.list [.int 3]) := hroot.trans rfl
  cases result with
  | error fault => cases hresult
  | ok v =>
    cases hresult
    exact ⟨new, hexec⟩

end DawScript
