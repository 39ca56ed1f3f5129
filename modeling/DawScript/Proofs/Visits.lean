import Mathlib.Data.List.Nodup
import Mathlib.Data.List.Perm.Basic
import DawScript.Proofs.SkippedItems

/-!
# Visits of items

What a visit does with each item of its list, one turn after the other (`Turns`): a turn begins
where the one before it has ended, runs the callback on its item, and either has a result or is
passed over. So a combinator that visits items accounts for every one of them once
(`visit_accounts_for_items`), whatever the callback does to what is stored or passed over meanwhile.
-/

set_option autoImplicit false

namespace DawScript

/-! ## Turns -/

/-- The turn of an item: its place in the list, the state in which the callback begins, and what the
callback makes of the item and of the state. -/
structure Turn where
  position : Nat
  item : Value
  before : State
  outcome : Except Fault Value
  after : State

namespace Turn

/-- The item with its result, if there is one. -/
def produced? (turn : Turn) : Option (Value × Value) :=
  match turn.outcome with
  | .ok v => some (turn.item, v)
  | .error _ => none

/-- The report of the item, if it is passed over. -/
def skip? (c : Combinator) (turn : Turn) : Option SkippedItem :=
  match turn.outcome with
  | .ok _ => none
  | .error fault => some ⟨c.name, turn.position, fault.message⟩

/-- The state that the turn leaves. -/
def left (c : Combinator) (turn : Turn) : State :=
  match turn.skip? c with
  | none => turn.after
  | some report => turn.after.skip report

/-- What calls inside the callback pass over during the turn. -/
def nested (turn : Turn) : List SkippedItem :=
  turn.after.skipped.toList.drop turn.before.skipped.size

/-- What is passed over during the turn, the item itself last. -/
def reports (c : Combinator) (turn : Turn) : List SkippedItem :=
  turn.nested ++ (turn.skip? c).toList

end Turn

/-- The turns that a combinator makes from a position and a state on, and the state that the last
one leaves. -/
inductive Turns (c : Combinator) (name : String) (f : Callback) :
    Nat → State → List Turn → State → Prop where
  | done (position : Nat) (s : State) : Turns c name f position s [] s
  | next (turn : Turn) (rest : List Turn) (t : State) :
      (f ⟨name, turn.item⟩).exec turn.before = (turn.outcome, turn.after) →
      Turns c name f (turn.position + 1) (turn.left c) rest t →
      Turns c name f turn.position turn.before (turn :: rest) t

section Turns

variable {env : Env} {c : Combinator} {name : String} {f : Callback} {position : Nat}
  {s t : State} {turns : List Turn}

/-- Every list of items is visited. -/
theorem exists_turns (c : Combinator) (name : String) (f : Callback) (items : List Value)
    (position : Nat) (s : State) :
    ∃ turns t, turns.map Turn.item = items ∧ Turns c name f position s turns t := by
  induction items generalizing position s with
  | nil => exact ⟨[], s, rfl, .done position s⟩
  | cons item rest ih =>
    let result := (f ⟨name, item⟩).exec s
    let turn : Turn := ⟨position, item, s, result.1, result.2⟩
    obtain ⟨turns, t, hitems, hturns⟩ := ih (position + 1) (turn.left c)
    exact ⟨turn :: turns, t, congrArg (item :: ·) hitems, .next turn turns t rfl hturns⟩

/-- Settling the item of a turn has its result, if there is one, and leaves what the turn leaves. -/
theorem Turn.exec_settle (hlenient : env.config.strict = false) (turn : Turn) {x : Run Value}
    (h : x.exec turn.before = (turn.outcome, turn.after)) :
    (settle env c turn.position x).exec turn.before =
      (.ok turn.outcome.toOption, turn.left c) := by
  rw [Run.exec_settle, h, Turn.left, Turn.skip?]
  cases turn.outcome with
  | ok v => rfl
  | error fault =>
    simp only [hlenient]
    rfl

/-- A lenient visit makes its turns and returns what they have produced. -/
theorem Turns.exec_visitFrom (hlenient : env.config.strict = false)
    (h : Turns c name f position s turns t) :
    (visitFrom env c name f position (turns.map Turn.item)).exec s =
      (.ok (turns.filterMap Turn.produced?), t) := by
  induction h with
  | done position s => rfl
  | next turn rest t hexec _ ih =>
    rw [List.map_cons, visitFrom, Run.exec_bind_ok (turn.exec_settle hlenient hexec),
      Run.exec_bind_ok ih, List.filterMap_cons, Turn.produced?]
    cases turn.outcome <;> rfl

/-- The turns are at one position after the other. -/
theorem Turns.positions (h : Turns c name f position s turns t) :
    turns.map Turn.position = List.range' position turns.length := by
  induction h with
  | done => rfl
  | next turn rest t _ _ ih => rw [List.map_cons, ih, List.length_cons, List.range'_succ]

/-- Each turn runs the callback on its item. -/
theorem Turns.exec (h : Turns c name f position s turns t) :
    ∀ turn ∈ turns, (f ⟨name, turn.item⟩).exec turn.before = (turn.outcome, turn.after) := by
  induction h with
  | done => exact List.forall_mem_nil _
  | next turn rest t hexec _ ih => exact List.forall_mem_cons.2 ⟨hexec, ih⟩

/-- What a turn passes over comes after what had been passed over before. -/
theorem Turn.skipped_after {turn : Turn} (happends : (f ⟨name, turn.item⟩).Appends)
    (h : (f ⟨name, turn.item⟩).exec turn.before = (turn.outcome, turn.after)) :
    turn.after.skipped.toList = turn.before.skipped.toList ++ turn.nested := by
  have hprefix := (happends turn.before).skipped
  rw [h] at hprefix
  exact List.prefix_iff_eq_append.1 hprefix |>.symm

theorem Turn.skipped_left (c : Combinator) (turn : Turn) :
    (turn.left c).skipped.toList = turn.after.skipped.toList ++ (turn.skip? c).toList := by
  unfold Turn.left
  cases turn.skip? c with
  | none => exact (List.append_nil _).symm
  | some report => exact Array.toList_push

/-- What is passed over during a visit is passed over during its turns, in their order. -/
theorem Turns.skipped (happends : ∀ scope, (f scope).Appends)
    (h : Turns c name f position s turns t) :
    t.skipped.toList = s.skipped.toList ++ turns.flatMap (Turn.reports c) := by
  induction h with
  | done => exact (List.append_nil _).symm
  | next turn rest t hexec _ ih =>
    rw [ih, turn.skipped_left, Turn.skipped_after (happends _) hexec, List.flatMap_cons,
      Turn.reports]
    simp only [List.append_assoc]

/-- Where the callback only reads and does not see what is passed over, every turn has the outcome
that it would have at the start. -/
theorem Turns.outcome_eq (hreads : ∀ scope, (f scope).Reads)
    (hoblivious : ∀ scope, (f scope).Oblivious) {u : State} (h : Turns c name f position u turns t)
    {skipped : Array SkippedItem} (hu : u = { s with skipped := skipped }) :
    ∀ turn ∈ turns, turn.outcome = ((f ⟨name, turn.item⟩).exec s).1 := by
  induction h generalizing skipped with
  | done => exact List.forall_mem_nil _
  | next turn rest t hexec _ ih =>
    have hstart : (f ⟨name, turn.item⟩).exec s = (((f ⟨name, turn.item⟩).exec s).1, s) :=
      Prod.ext rfl (hreads _ s)
    have hlater := (hoblivious _).exec_skipped hstart rfl skipped
    rw [← hu, hexec] at hlater
    obtain ⟨houtcome, hafter⟩ := Prod.mk.inj hlater
    refine List.forall_mem_cons.2 ⟨houtcome, ?_⟩
    cases hskip : turn.skip? c with
    | none => exact ih (by rw [Turn.left, hskip, hafter, hu])
    | some report => exact ih (by rw [Turn.left, hskip, hafter, hu]; rfl)

end Turns

/-! ## Visits without faults -/

section Visit

variable {α : Type} {env : Env} {c : Combinator} {name : String} {f : Callback}

/-- A visit of items none of which fails has all their results, and their effects one after the
other. -/
theorem exec_visitFrom_of_ok (write result : α → Value) (effect : α → State → State)
    {xs : List α}
    (h : ∀ x ∈ xs, ∀ s, (f ⟨name, write x⟩).exec s = (.ok (result x), effect x s))
    (position : Nat) (s : State) :
    (visitFrom env c name f position (xs.map write)).exec s =
      (.ok (xs.map fun x => (write x, result x)), xs.foldl (fun u x => effect x u) s) := by
  induction xs generalizing position s with
  | nil => rfl
  | cons x rest ih =>
    have hrest := ih (fun y hy => h y (List.mem_cons_of_mem _ hy)) (position + 1) (effect x s)
    have hsettle := Run.exec_settle env c position (f ⟨name, write x⟩) s
    rw [h x List.mem_cons_self s] at hsettle
    rw [List.map_cons, visitFrom, Run.exec_bind_ok hsettle, Run.exec_bind_ok hrest]
    rfl

end Visit

/-! ## Positions -/

/-- The positions of the items that a combinator itself passes over. -/
def skippedPositions (c : Combinator) (turns : List Turn) : List Nat :=
  (turns.filterMap (Turn.skip? c)).map SkippedItem.position

/-- The positions of the items with a result. -/
def producedPositions (turns : List Turn) : List Nat :=
  (turns.filter fun turn => turn.produced?.isSome).map Turn.position

section Positions

variable (c : Combinator) (turns : List Turn)

theorem skippedPositions_eq :
    skippedPositions c turns =
      (turns.filter fun turn => !turn.produced?.isSome).map Turn.position := by
  induction turns with
  | nil => rfl
  | cons turn rest ih =>
    rw [skippedPositions] at ih ⊢
    rw [List.filterMap_cons, List.filter_cons, Turn.produced?, Turn.skip?]
    cases turn.outcome with
    | ok v => exact ih
    | error fault => exact congrArg (turn.position :: ·) ih

/-- Every turn is at one of the positions, and no turn at two. -/
theorem positions_perm :
    (skippedPositions c turns ++ producedPositions turns).Perm (turns.map Turn.position) := by
  rw [skippedPositions_eq, producedPositions, ← List.map_append]
  exact (List.perm_append_comm.trans
    (List.filter_append_perm (fun turn => turn.produced?.isSome) turns)).map Turn.position

theorem skippedPositions_sublist :
    (skippedPositions c turns).Sublist (turns.map Turn.position) := by
  rw [skippedPositions_eq]
  exact List.filter_sublist.map Turn.position

/-- The items with a result are items of the visit, in the same order. -/
theorem produced_sublist :
    ((turns.filterMap Turn.produced?).map Prod.fst).Sublist (turns.map Turn.item) := by
  induction turns with
  | nil => exact List.Sublist.slnil
  | cons turn rest ih =>
    rw [List.filterMap_cons, Turn.produced?]
    cases turn.outcome with
    | ok v => exact ih.cons_cons turn.item
    | error fault => exact ih.cons turn.item

theorem length_produced :
    (turns.filterMap Turn.produced?).length = (producedPositions turns).length := by
  rw [producedPositions, List.length_map, List.length_filterMap_eq_countP,
    List.countP_eq_length_filter]

theorem results_eq :
    (turns.filterMap Turn.produced?).map Prod.snd =
      turns.filterMap fun turn => turn.outcome.toOption := by
  rw [List.map_filterMap]
  refine List.filterMap_congr fun turn _ => ?_
  rw [Turn.produced?]
  cases turn.outcome <;> rfl

end Positions

/-! ## Combinators -/

/-- The value of a combinator that visits items from the items with a result and their results. -/
def Combinator.collect (c : Combinator) (visited : List (Value × Value)) : Value :=
  match c with
  | .filter => .list ((visited.filter fun pair => pair.2.isTruthy).map Prod.fst)
  | .map => .list (visited.map Prod.snd)
  | _ => .null

section Call

variable {env : Env} {c : Combinator} {name : String} {arguments : List (Arg Expr)}
  {function source : Expr} {f : Callback}

/-- A call that visits items evaluates the collection, visits its items and collects the results. -/
theorem evaluate_visitCall (h : VisitCall env c name arguments function source f)
    (scope : Option Binding) :
    evaluate env (.call name arguments) scope = tryCatch (do
        let (items, itemName) ← collection (meaning env source) scope
        let visited ← visit env c itemName f items
        return c.collect visited) fun fault =>
      throw (fault.within name (argumentsText arguments)) := by
  obtain ⟨⟨given, parameter, ⟨hname, hassign⟩, hparameter, hfunction, hsource⟩, hcallback⟩ := h
  have hvisit : visitCollection env c parameter "collection" (mapGiven (operand env) given) scope =
      collection (meaning env source) scope >>= fun found => visit env c found.2 f found.1 := by
    simp only [visitCollection, required, lookup_mapGiven, hfunction, hsource, Option.map_some,
      Run.lift_ok_bind, hcallback]
    rfl
  rw [evaluate, runCall, runNamed, hname]
  cases c with
  | filter =>
    cases hparameter
    simp only [runCombinator, operands_eq_map, assign_map, hassign, Run.lift_map_bind,
      Run.lift_ok_bind, runFilter, hvisit, bind_assoc, Combinator.collect]
  | map =>
    cases hparameter
    simp only [runCombinator, operands_eq_map, assign_map, hassign, Run.lift_map_bind,
      Run.lift_ok_bind, runMap, hvisit, bind_assoc, Combinator.collect]
  | forEach =>
    cases hparameter
    simp only [runCombinator, operands_eq_map, assign_map, hassign, Run.lift_map_bind,
      Run.lift_ok_bind, runForEach, hvisit, bind_assoc, Combinator.collect]
  | _ => cases hparameter

/-- An expression that is no function reference is evaluated for each item. -/
theorem callback_eq_ok_iff (hexpression : ∀ inner own, function ≠ .function inner own) :
    callback env (operand env function) = .ok f ↔
      f = fun scope => evaluate env function (some scope) := by
  have hcallback : callback env (operand env function) =
      .ok fun scope => evaluate env function (some scope) := by
    cases function with
    | function inner own => exact absurd rfl (hexpression inner own)
    | _ => rfl
  rw [hcallback, Except.ok.injEq]
  exact eq_comm

/-- A collection that is a bare name is what is stored under the name when the visit begins. -/
theorem exec_collection_name {symbol itemName : String} {scope : Option Binding} {s s₀ : State}
    {items : List Value}
    (h : (collection (meaning env (.name symbol)) scope).exec s = (.ok (items, itemName), s₀)) :
    s₀ = s ∧ (s.symbol? symbol).getD (.list []) = .list items := by
  rw [collection_eq] at h
  change (itemsOf (DawScript.itemName symbol) ((s.symbol? symbol).getD (.list []))).exec s = _ at h
  cases hstored : (s.symbol? symbol).getD (.list []) with
  | list stored =>
    rw [hstored] at h
    cases h
    exact ⟨rfl, rfl⟩
  | _ =>
    rw [hstored] at h
    cases h

end Call

section Plain

variable {env : Env} {c : Combinator} {name : String} {function : Expr} {s t : State}
  {turns : List Turn} {position : Nat}

/-- An expression without calls has the same outcome in its turn as it has at the start. -/
theorem Turns.outcome_of_plain (hplain : function.calls = [])
    (h : Turns c name (fun scope => evaluate env function (some scope)) position s turns t) :
    ∀ turn ∈ turns,
      turn.outcome = ((evaluate env function (some ⟨name, turn.item⟩)).exec s).1 :=
  h.outcome_eq (fun _ => evaluate_reads hplain)
    (fun scope => ((obliviousness env).relation.evaluate function (some scope)).2) rfl

/-- The items that a filter keeps for an expression without calls are those for which the expression
counts as true. -/
theorem Turns.kept_of_plain (hplain : function.calls = [])
    (h : Turns c name (fun scope => evaluate env function (some scope)) position s turns t) :
    ((turns.filterMap Turn.produced?).filter fun pair => pair.2.isTruthy).map Prod.fst =
      (turns.map Turn.item).filter fun item =>
        ((evaluate env function (some ⟨name, item⟩)).exec s).1.toOption.any Value.isTruthy := by
  have houtcomes := h.outcome_of_plain hplain
  clear h
  induction turns with
  | nil => rfl
  | cons turn rest ih =>
    obtain ⟨hfirst, hrest⟩ := List.forall_mem_cons.1 houtcomes
    rw [List.filterMap_cons, List.map_cons, List.filter_cons, ← hfirst, ← ih hrest,
      Turn.produced?]
    cases turn.outcome with
    | error fault => rfl
    | ok v => cases hv : v.isTruthy <;> simp [hv, Except.toOption]

/-- The positions that are passed over for an expression without calls are those of the items for
which the expression has a fault. -/
theorem Turns.skippedPositions_of_plain (hplain : function.calls = [])
    (h : Turns c name (fun scope => evaluate env function (some scope)) position s turns t) :
    skippedPositions c turns = (((turns.map Turn.item).zipIdx position).filter fun entry =>
      ((evaluate env function (some ⟨name, entry.1⟩)).exec s).1.toOption.isNone).map Prod.snd := by
  have houtcomes := h.outcome_of_plain hplain
  have hpositions := h.positions
  clear h
  rw [skippedPositions]
  induction turns generalizing position with
  | nil => rfl
  | cons turn rest ih =>
    obtain ⟨hfirst, hrest⟩ := List.forall_mem_cons.1 houtcomes
    rw [List.map_cons, List.length_cons, List.range'_succ, List.cons.injEq] at hpositions
    obtain ⟨rfl, hlater⟩ := hpositions
    rw [List.filterMap_cons, List.map_cons, List.zipIdx_cons, List.filter_cons, ← hfirst,
      Turn.skip?]
    cases turn.outcome with
    | ok v => exact ih hrest hlater
    | error fault => exact congrArg (turn.position :: ·) (ih hrest hlater)

end Plain

/-- A lenient `filter`, `map` or `for_each` accounts for every item of its list exactly once. It
visits the items of the list that it has when it begins, one after the other by their positions, and
each turn begins in the state that the one before it has left; what the callback stores, emits or
passes over inside does not change that. The positions of the items that it passes over itself
increase, and with those of the items that have a result they are all positions; what calls inside
the callback pass over is told apart from them. `map` returns one result for each of the other items
in their order, and `filter` some of the items in their order. If the predicate is an expression
without calls, an item is kept exactly if the predicate counts as true for it, and passed over
exactly if it has a fault. -/
theorem visit_accounts_for_items (env : Env) (hlenient : env.config.strict = false)
    {c : Combinator} {name : String} {arguments : List (Arg Expr)} {function source : Expr}
    {f : Callback} (hcall : VisitCall env c name arguments function source f)
    {scope : Option Binding} {s s₀ : State} {items : List Value} {itemName : String}
    (hitems : (collection (meaning env source) scope).exec s = (.ok (items, itemName), s₀)) :
    ∃ turns t, Turns c itemName f 0 s₀ turns t ∧
      (evaluate env (.call name arguments) scope).exec s =
        (.ok (c.collect (turns.filterMap Turn.produced?)), t) ∧
      (∀ symbol, source = .name symbol →
        s₀ = s ∧ (s.symbol? symbol).getD (.list []) = .list items) ∧
      turns.map Turn.item = items ∧ turns.map Turn.position = List.range items.length ∧
      (∀ turn ∈ turns,
        turn.after.skipped.toList = turn.before.skipped.toList ++ turn.nested) ∧
      t.skipped.toList = s₀.skipped.toList ++ turns.flatMap (Turn.reports c) ∧
      (skippedPositions c turns).Pairwise (· < ·) ∧
      (skippedPositions c turns ++ producedPositions turns).Perm (List.range items.length) ∧
      (c = .map → ∃ values, c.collect (turns.filterMap Turn.produced?) = .list values ∧
        values = (turns.filterMap fun turn => turn.outcome.toOption) ∧
        values.length + (skippedPositions c turns).length = items.length) ∧
      (c = .filter → ∃ kept, c.collect (turns.filterMap Turn.produced?) = .list kept ∧
        kept.Sublist items ∧
        ((∀ inner own, function ≠ .function inner own) → function.calls = [] →
          let outcome (item : Value) : Except Fault Value :=
            ((evaluate env function (some ⟨itemName, item⟩)).exec s₀).1
          kept = items.filter (fun item => (outcome item).toOption.any Value.isTruthy) ∧
          skippedPositions c turns = (items.zipIdx.filter fun entry =>
            (outcome entry.1).toOption.isNone).map Prod.snd)) := by
  obtain ⟨turns, t, rfl, hturns⟩ := exists_turns c itemName f items 0 s₀
  have happends (scope : Binding) : (f scope).Appends :=
    (growth env).holds_callback hcall.callback scope
  have hpositions : turns.map Turn.position = List.range (turns.map Turn.item).length := by
    rw [hturns.positions, List.length_map, List.range_eq_range']
  have hperm := positions_perm c turns
  rw [hpositions] at hperm
  have hvisit : (visit env c itemName f (turns.map Turn.item)).exec s₀ =
      (.ok (turns.filterMap Turn.produced?), t) := hturns.exec_visitFrom hlenient
  refine ⟨turns, t, hturns, ?_, ?_, rfl, hpositions, ?_, hturns.skipped happends, ?_, hperm, ?_, ?_⟩
  · rw [evaluate_visitCall hcall, Run.exec_within, Run.exec_bind_ok hitems,
      Run.exec_bind_ok hvisit]
    rfl
  · rintro symbol rfl
    exact exec_collection_name hitems
  · exact fun turn hturn => Turn.skipped_after (happends _) (hturns.exec turn hturn)
  · have hsublist := skippedPositions_sublist c turns
    rw [hpositions] at hsublist
    exact List.pairwise_lt_range.sublist hsublist
  · rintro rfl
    refine ⟨_, rfl, results_eq turns, ?_⟩
    have hlength := hperm.length_eq
    rw [List.length_append, List.length_range, ← length_produced] at hlength
    rw [List.length_map, Nat.add_comm, hlength]
  · rintro rfl
    refine ⟨_, rfl, ?_, fun hexpression hplain => ?_⟩
    · exact (List.filter_sublist.map Prod.fst).trans (produced_sublist turns)
    · cases (callback_eq_ok_iff hexpression).1 hcall.callback
      exact ⟨hturns.kept_of_plain hplain, hturns.skippedPositions_of_plain hplain⟩

/-- Levels, one of which is no number. -/
def levelsWithText : List Value := [.int 1, .string "high", .int 3]

/-- The levels that are one above two: for the text there is no difference, so it is passed over. -/
theorem filter_levelsWithText :
    let predicate : Expr :=
      .binary .eq (.binary .sub (.name "level") (.literal (.int 1))) (.literal (.int 2))
    let start : State := (State.fresh #[]).store "levels" (.list levelsWithText)
    ∃ turns t, (evaluate ⟨none, {}⟩
        (.call "filter" [⟨none, .name "levels"⟩, ⟨none, predicate⟩]) none).exec start =
          (.ok (.list [.int 3]), t) ∧
      turns.map Turn.item = levelsWithText ∧ skippedPositions .filter turns = [1] ∧
      t.skipped.toList = turns.flatMap (Turn.reports .filter) := by
  intro predicate start
  have hcall : VisitCall ⟨none, {}⟩ .filter "filter"
      [⟨none, .name "levels"⟩, ⟨none, predicate⟩] predicate (.name "levels")
      fun scope => evaluate ⟨none, {}⟩ predicate (some scope) :=
    ⟨⟨_, "predicate", ⟨rfl, rfl⟩, rfl, rfl, rfl⟩, rfl⟩
  have hitems : (collection (meaning ⟨none, {}⟩ (.name "levels")) none).exec start =
      (.ok (levelsWithText, "level"), start) := rfl
  obtain ⟨turns, t, -, hexec, -, hvisited, -, -, hskipped, -, -, -, hfilter⟩ :=
    visit_accounts_for_items ⟨none, {}⟩ rfl hcall hitems
  obtain ⟨kept, hkept, -, hplain⟩ := hfilter rfl
  obtain ⟨hvalues, hpositions⟩ := hplain (fun _ _ => by simp [predicate]) rfl
  refine ⟨turns, t, ?_, hvisited, hpositions.trans rfl, hskipped⟩
  have hthree : kept = [.int 3] := hvalues.trans rfl
  rw [hexec, hkept, hthree]

end DawScript
