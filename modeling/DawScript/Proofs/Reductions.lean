import DawScript.Proofs.IntegerExpressions
import DawScript.Proofs.Task
import Mathlib.Algebra.BigOperators.Group.List.Basic
import Mathlib.Algebra.Ring.Int.Defs

/-!
# Reductions

A call of `reduce` folds the items of its collection, from the value of `initial` if that is given
(`exec_reduceCall`). The folds of integers by `add` and `mul` are exact: they give the total if and
only if the total of every beginning is a word (`Reducer.Totals.run_words`), `count` gives the
number of the items (`run_count`), and a fold over a list is a fold over its first part followed by
a fold over the rest (`reductions_are_checked_folds`).
-/

set_option autoImplicit false

namespace DawScript

/-! ## Calls of `reduce` -/

/-- A call of `reduce` with a fold over `source`, from `initial` if it is given. -/
structure ReduceCall (r : Reducer) (name : String) (arguments : List (Arg Expr)) (source : Expr)
    (initial : Option Expr) : Prop where
  call : ∃ given function, CombinatorCall .reduce name arguments given ∧
    given.lookup "func" = some function ∧ reducer function = .ok r ∧
    given.lookup "collection" = some source ∧ given.lookup "initial" = initial

/-- The value that a fold is given to start from. -/
def startValue (env : Env) (initial : Option Expr) (scope : Option Binding) : Run (Option Value) :=
  match initial with
  | some e => some <$> evaluate env e scope
  | none => pure none

section Call

variable {env : Env} {r : Reducer} {name : String} {arguments : List (Arg Expr)} {source : Expr}
  {initial : Option Expr} {scope : Option Binding}

/-- A call of `reduce` evaluates the collection and then the start, and folds the items. -/
theorem evaluate_reduceCall (h : ReduceCall r name arguments source initial) :
    evaluate env (.call name arguments) scope = tryCatch (do
        let (items, _) ← collection (meaning env source) scope
        let start ← startValue env initial scope
        Run.evaluated (r.run start items)) fun fault =>
      throw (fault.within name (argumentsText arguments)) := by
  obtain ⟨given, function, ⟨hname, hassign⟩, hfunction, hreducer, hsource, rfl⟩ := h.call
  have hreduce : runReduce (mapGiven (operand env) given) scope = (do
      let (items, _) ← collection (meaning env source) scope
      let start ← startValue env (given.lookup "initial") scope
      Run.evaluated (r.run start items)) := by
    have hfold : reducer (operand env function).source = .ok r := hreducer
    simp only [runReduce, required, lookup_mapGiven, hfunction, hsource, Option.map_some,
      Run.lift_ok_bind, hfold]
    cases given.lookup "initial" <;> rfl
  rw [evaluate, runCall, runNamed, hname]
  simp only [runCombinator, operands_eq_map, assign_map, hassign, Run.lift_map_bind,
    Run.lift_ok_bind, hreduce]

/-- What a call of `reduce` makes of a state: what the fold makes of the items and the start. -/
theorem exec_reduceCall (h : ReduceCall r name arguments source initial) {s t u : State}
    {items : List Value} {itemName : String} {start : Option Value}
    (hitems : (collection (meaning env source) scope).exec s = (.ok (items, itemName), t))
    (hstart : (startValue env initial scope).exec t = (.ok start, u)) :
    (evaluate env (.call name arguments) scope).exec s =
      ((r.run start items).mapError fun cause =>
        (Fault.evaluation cause).within name (argumentsText arguments), u) := by
  rw [evaluate_reduceCall h, Run.exec_within, Run.exec_bind_ok hitems, Run.exec_bind_ok hstart]
  cases r.run start items <;> rfl

end Call

/-! ## Starts and parts of a fold -/

namespace Reducer

variable {r : Reducer}

theorem seed?_eq_none_iff : r.seed? = none ↔ r ≠ .count := by
  cases r <;> simp [seed?]

theorem run_some (r : Reducer) (start : Value) (items : List Value) :
    r.run (some start) items = r.fold start items := rfl

/-- A fold without a seed starts from the value that is given, or else from the first item. -/
theorem run_of_seedless (h : r.seed? = none) {start : Option Value} {items rest : List Value}
    {first : Value} (hlist : start.toList ++ items = first :: rest) :
    r.run start items = r.fold first rest := by
  cases start with
  | some v =>
    obtain ⟨rfl, rfl⟩ := List.cons.inj hlist
    exact r.run_some v items
  | none =>
    change items = first :: rest at hlist
    simp only [run, Option.none_or, h, hlist]

theorem run_nil_of_seedless (h : r.seed? = none) : r.run none [] = .ok .null := by
  simp only [run, Option.none_or, h]

/-- A fold over a list folds its first part and then, from what that gives, the rest. -/
theorem run_append (r : Reducer) (start : Value) (items others : List Value) :
    r.run (some start) (items ++ others) =
      r.run (some start) items >>= fun v => r.run (some v) others := by
  simp only [run_some, fold, List.foldlM_append]

/-- A fold over a list fails exactly if the fold over one of the two parts does. -/
theorem run_append_fails_iff (r : Reducer) (start : Value) (items others : List Value) :
    (∃ fault, r.run (some start) (items ++ others) = .error fault) ↔
      (∃ fault, r.run (some start) items = .error fault) ∨
        ∃ v fault, r.run (some start) items = .ok v ∧ r.run (some v) others = .error fault := by
  rw [run_append]
  cases hfirst : r.run (some start) items with
  | error fault =>
    constructor
    · intro _
      exact .inl ⟨fault, rfl⟩
    · intro _
      exact ⟨fault, rfl⟩
  | ok v =>
    constructor
    · rintro ⟨fault, hrest⟩
      exact .inr ⟨v, fault, rfl, hrest⟩
    · rintro (⟨fault, h⟩ | ⟨w, fault, h, hrest⟩)
      · cases h
      · cases h
        exact ⟨fault, hrest⟩

/-! ## Totals -/

/-- A fold that computes a total of integers step by step. -/
structure Totals (r : Reducer) (op : BinaryOp) (total : List Int → Int) : Prop where
  seedless : r.seed? = none
  single : ∀ n, total [n] = n
  step : ∀ (before : List Int) (acc item : Int64), acc.toInt = total before →
    r.apply (.int acc) (.int item) = Value.exactly op (total (before ++ [item.toInt]))

theorem totals_add : Totals .add .add List.sum where
  seedless := rfl
  single := fun _ => List.sum_singleton
  step := by
    intro before acc item hacc
    rw [List.sum_append, List.sum_singleton, ← hacc]
    rfl

theorem totals_mul : Totals .mul .mul List.prod where
  seedless := rfl
  single := fun _ => List.prod_singleton
  step := by
    intro before acc item hacc
    rw [List.prod_append, List.prod_singleton, ← hacc]
    rfl

/-- The total of every beginning of a list is a word. -/
def BeginningsFit (total : List Int → Int) (ns : List Int) : Prop :=
  ∀ beginning, beginning ≠ [] → beginning <+: ns → fitsWord (total beginning) = true

section Totals

variable {op : BinaryOp} {total : List Int → Int}

/-- The totals of all beginnings of `before ++ rest` that are no shorter than `before`. -/
def ContinuationsFit (total : List Int → Int) (before rest : List Int) : Prop :=
  ∀ next, next <+: rest → fitsWord (total (before ++ next)) = true

theorem ContinuationsFit.start {before rest : List Int} (h : ContinuationsFit total before rest) :
    fitsWord (total before) = true := by
  have hnil := h [] List.nil_prefix
  rwa [List.append_nil] at hnil

theorem continuationsFit_nil {before : List Int} :
    ContinuationsFit total before [] ↔ fitsWord (total before) = true := by
  constructor
  · exact ContinuationsFit.start
  · intro h next hnext
    rwa [List.prefix_nil.1 hnext, List.append_nil]

theorem continuationsFit_cons {before rest : List Int} {n : Int} :
    ContinuationsFit total before (n :: rest) ↔
      fitsWord (total before) = true ∧ ContinuationsFit total (before ++ [n]) rest := by
  constructor
  · intro h
    refine ⟨h.start, ?_⟩
    intro next hnext
    rw [List.append_assoc]
    exact h (n :: next) (List.cons_prefix_cons.2 ⟨rfl, hnext⟩)
  · rintro ⟨hbefore, hrest⟩ next hnext
    cases next with
    | nil => rwa [List.append_nil]
    | cons m next =>
      obtain ⟨rfl, htail⟩ := List.cons_prefix_cons.1 hnext
      have hfits := hrest next htail
      rwa [List.append_assoc] at hfits

theorem beginningsFit_cons {n : Int} {rest : List Int} :
    BeginningsFit total (n :: rest) ↔ ContinuationsFit total [n] rest := by
  constructor
  · intro h next hnext
    exact h (n :: next) (List.cons_ne_nil n next) (List.cons_prefix_cons.2 ⟨rfl, hnext⟩)
  · intro h beginning hne hbeginning
    cases beginning with
    | nil => exact absurd rfl hne
    | cons m next =>
      obtain ⟨rfl, hnext⟩ := List.cons_prefix_cons.1 hbeginning
      exact h next hnext

/-- A fold goes on as long as the totals are words. -/
theorem Totals.fold_words (h : r.Totals op total) (rest : List Int64) :
    ∀ (before : List Int) (acc : Int64), acc.toInt = total before →
      (ContinuationsFit total before (rest.map Int64.toInt) →
        ∃ n : Int64, n.toInt = total (before ++ rest.map Int64.toInt) ∧
          r.fold (.int acc) (rest.map .int) = .ok (.int n)) ∧
      (¬ContinuationsFit total before (rest.map Int64.toInt) →
        r.fold (.int acc) (rest.map .int) = .error (.overflow op)) := by
  induction rest with
  | nil =>
    intro before acc hacc
    constructor
    · intro _
      exact ⟨acc, by rw [hacc, List.map_nil, List.append_nil], rfl⟩
    · intro hnot
      refine absurd (continuationsFit_nil.2 ?_) hnot
      rw [← hacc]
      exact fitsWord_toInt acc
  | cons item rest ih =>
    intro before acc hacc
    have hbefore : fitsWord (total before) = true := by
      rw [← hacc]
      exact fitsWord_toInt acc
    have hfits : ContinuationsFit total before ((item :: rest).map Int64.toInt) ↔
        ContinuationsFit total (before ++ [item.toInt]) (rest.map Int64.toInt) :=
      continuationsFit_cons.trans (and_iff_right hbefore)
    have hfold : r.fold (.int acc) ((item :: rest).map .int) =
        Value.exactly op (total (before ++ [item.toInt])) >>= fun v =>
          r.fold v (rest.map .int) := by
      rw [← h.step before acc item hacc]
      rfl
    rw [hfits, hfold]
    by_cases hnext : fitsWord (total (before ++ [item.toInt])) = true
    · -- the next total is a word, from which the fold goes on
      obtain ⟨w, hw, hexact⟩ := exactly_of_fits op hnext
      rw [hexact]
      obtain ⟨hvalue, hfault⟩ := ih (before ++ [item.toInt]) w hw
      refine ⟨?_, hfault⟩
      intro hrest
      obtain ⟨n, hn, hok⟩ := hvalue hrest
      refine ⟨n, ?_, hok⟩
      rw [hn, List.append_assoc]
      rfl
    · rw [exactly_of_not_fits op hnext]
      constructor
      · intro hrest
        exact absurd hrest.start hnext
      · intro _
        rfl

/-- A fold of integers, of which there is at least one with the start, gives the total if and only
if the total of every beginning is a word; otherwise it overflows. -/
def Exact (r : Reducer) (op : BinaryOp) (total : List Int → Int) : Prop :=
  ∀ (start : Option Int64) (xs : List Int64), start.toList ++ xs ≠ [] →
    let ns := (start.toList ++ xs).map Int64.toInt
    ((∃ n : Int64, n.toInt = total ns ∧ r.run (start.map .int) (xs.map .int) = .ok (.int n)) ↔
      BeginningsFit total ns) ∧
    (¬BeginningsFit total ns → r.run (start.map .int) (xs.map .int) = .error (.overflow op))

theorem Totals.run_words (h : r.Totals op total) : r.Exact op total := by
  intro start xs hne ns
  obtain ⟨first, rest, hlist⟩ := List.exists_cons_of_ne_nil hne
  have hvalues : (start.map Value.int).toList ++ xs.map .int =
      .int first :: rest.map .int := by
    rw [← List.map_cons, ← hlist, List.map_append]
    cases start <;> rfl
  rw [run_of_seedless h.seedless hvalues]
  have hns : ns = first.toInt :: rest.map Int64.toInt := congrArg (List.map Int64.toInt) hlist
  rw [hns, beginningsFit_cons]
  obtain ⟨hvalue, hfault⟩ := h.fold_words rest [first.toInt] first (h.single _).symm
  refine ⟨⟨?_, hvalue⟩, hfault⟩
  rintro ⟨n, -, hok⟩
  apply Classical.byContradiction
  intro hnot
  rw [hfault hnot] at hok
  cases hok

end Totals

/-! ## Counting -/

/-- Counting goes on from a word as long as there is a next one. -/
theorem fold_count (items : List Value) (w : Int64) :
    Reducer.count.fold (.int w) items = Value.exactly .add (w.toInt + items.length) := by
  induction items generalizing w with
  | nil =>
    rw [List.length_nil, Int.natCast_zero, Int.add_zero, Value.exactly, word?_toInt]
    rfl
  | cons item rest ih =>
    have hfold : Reducer.count.fold (.int w) (item :: rest) =
        Value.exactly .add (w.toInt + 1) >>= fun v => Reducer.count.fold v rest := rfl
    rw [hfold, List.length_cons]
    by_cases hnext : fitsWord (w.toInt + 1) = true
    · obtain ⟨v, hv, hexact⟩ := exactly_of_fits .add hnext
      rw [hexact]
      refine (ih v).trans ?_
      rw [hv, Int.natCast_add, Int.natCast_one, Int.add_assoc, Int.add_comm 1]
    · rw [exactly_of_not_fits .add hnext]
      refine (exactly_of_not_fits .add ?_).symm
      have hw := w.le_toInt
      rw [fitsWord_iff, wordLimit] at hnext ⊢
      omega

/-- Counting gives the number of the items, of any kind. -/
theorem run_count (items : List Value) :
    Reducer.count.run none items = Value.exactly .add items.length := by
  change Reducer.count.fold (.int 0) items = _
  rw [fold_count, Int64.toInt_zero, Int.zero_add]

theorem run_count_of_lt {items : List Value} (h : (items.length : Int) < wordLimit) :
    ∃ n : Int64, n.toInt = items.length ∧ Reducer.count.run none items = .ok (.int n) := by
  have hfits : fitsWord items.length = true := by
    rw [fitsWord_iff, wordLimit] at *
    omega
  rw [run_count]
  exact exactly_of_fits .add hfits

end Reducer

/-! ## Main result -/

/-- Reductions are checked left folds. A call of `reduce` folds the items of its collection from the
start that it is given. A sum or a product of integers is exact if the total of every beginning is a
word, and overflows otherwise. Without a start, counting gives the length of the list, which is a
word unless there are `wordLimit` items or more, and every other fold starts from the first item and
gives null for no items. A fold of two lists in a row is the fold of the second from what the fold
of the first gives, and fails if one of the two does. -/
theorem reductions_are_checked_folds :
    (∀ (env : Env) {r : Reducer} {name : String} {arguments : List (Arg Expr)} {source : Expr}
        {initial : Option Expr}, ReduceCall r name arguments source initial →
      ∀ (scope : Option Binding) {s t u : State} {items : List Value} {itemName : String}
        {start : Option Value},
      (collection (meaning env source) scope).exec s = (.ok (items, itemName), t) →
      (startValue env initial scope).exec t = (.ok start, u) →
      (evaluate env (.call name arguments) scope).exec s =
        ((r.run start items).mapError fun cause =>
          (Fault.evaluation cause).within name (argumentsText arguments), u)) ∧
    Reducer.add.Exact .add List.sum ∧
    Reducer.mul.Exact .mul List.prod ∧
    (∀ r : Reducer, r ≠ .count → r.run none [] = .ok .null ∧
      ∀ first rest, r.run none (first :: rest) = r.run (some first) rest) ∧
    (∀ items : List Value, Reducer.count.run none items = Value.exactly .add items.length ∧
      ((items.length : Int) < wordLimit →
        ∃ n : Int64, n.toInt = items.length ∧ Reducer.count.run none items = .ok (.int n))) ∧
    ∀ (r : Reducer) (start : Value) (items others : List Value),
      (r.run (some start) (items ++ others) =
        r.run (some start) items >>= fun v => r.run (some v) others) ∧
      ((∃ fault, r.run (some start) (items ++ others) = .error fault) ↔
        (∃ fault, r.run (some start) items = .error fault) ∨
          ∃ v fault, r.run (some start) items = .ok v ∧ r.run (some v) others = .error fault) := by
  refine ⟨?_, Reducer.totals_add.run_words, Reducer.totals_mul.run_words, ?_, ?_, ?_⟩
  · intro env r name arguments source initial hcall scope s t u items itemName start hitems hstart
    exact exec_reduceCall hcall hitems hstart
  · intro r hr
    have hseed := Reducer.seed?_eq_none_iff.2 hr
    refine ⟨Reducer.run_nil_of_seedless hseed, ?_⟩
    intro first rest
    exact Reducer.run_of_seedless hseed rfl
  · intro items
    exact ⟨Reducer.run_count items, Reducer.run_count_of_lt⟩
  · intro r start items others
    exact ⟨r.run_append start items others, r.run_append_fails_iff start items others⟩

/-- The greatest word can be reached, but a sum that goes beyond it overflows, although what follows
would take it back. -/
theorem reduce_beside_wordLimit :
    let arguments (ns : List Int64) : List (Arg Expr) :=
      [⟨none, .function "add" []⟩, ⟨none, .list (ns.map fun n => .literal (.int n))⟩]
    let start : State := .fresh #[]
    (evaluate ⟨none, {}⟩ (.call "reduce" (arguments [9223372036854775807, -1, 1]))
        none).exec start = (.ok (.int 9223372036854775807), start) ∧
      (∃ fault, (evaluate ⟨none, {}⟩ (.call "reduce" (arguments [9223372036854775807, 1, -1]))
        none).exec start = (.error fault, start) ∧ fault.root = .evaluation (.overflow .add)) ∧
      Reducer.max.run none [.int 3, .null] = Reducer.max.run (some (.int 3)) [.null] ∧
      Reducer.count.run none [.int 3, .null] = .ok (.int 2) := by
  intro arguments start
  obtain ⟨hcalls, hadd, -, hseedless, hcount, -⟩ := reductions_are_checked_folds
  have hexec (first second third : Int64) :
      (evaluate ⟨none, {}⟩ (.call "reduce" (arguments [first, second, third])) none).exec start =
        ((Reducer.add.run none [.int first, .int second, .int third]).mapError fun cause =>
          (Fault.evaluation cause).within "reduce"
            (argumentsText (arguments [first, second, third])), start) := by
    have hitems : (collection (meaning ⟨none, {}⟩
        (.list ([first, second, third].map fun n => .literal (.int n)))) none).exec start =
          (.ok ([.int first, .int second, .int third], "item"), start) := by
      simp only [collection_eq, meaning, Expr.name?, List.map_cons, List.map_nil, evaluate,
        evaluateItems, pure_bind]
      rfl
    exact hcalls ⟨none, {}⟩ ⟨_, _, ⟨rfl, rfl⟩, rfl, rfl, rfl, rfl⟩ none hitems rfl
  have hsums (first second third : Int64) :=
    hadd none [first, second, third] (List.cons_ne_nil first [second, third])
  simp only [Option.toList_none, Option.map_none, List.nil_append, List.map_cons, List.map_nil,
    Reducer.beginningsFit_cons, Reducer.continuationsFit_cons, Reducer.continuationsFit_nil]
    at hsums
  refine ⟨?_, ?_, (hseedless .max (by decide)).2 _ _, ?_⟩
  · obtain ⟨n, hn, hok⟩ := (hsums 9223372036854775807 (-1) 1).1.2 (by decide)
    have hword : n = 9223372036854775807 := Int64.toInt_inj.1 hn
    rw [hexec, hok, hword]
    rfl
  · rw [hexec, (hsums 9223372036854775807 1 (-1)).2 (by decide)]
    exact ⟨_, rfl, Fault.root_within _ _ _⟩
  · obtain ⟨n, hn, hok⟩ := (hcount [.int 3, .null]).2 (by decide)
    have hword : n = 2 := Int64.toInt_inj.1 hn
    rw [hok, hword]

end DawScript
