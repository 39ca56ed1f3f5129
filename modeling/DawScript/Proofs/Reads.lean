import DawScript.Proofs.FreeNames
import DawScript.Proofs.NestedCalls

/-!
# Reading runs

Expressions without calls only read. Whether they have a value or a fault, they leave the state as
it was (`evaluate_reads`), and what they evaluate to depends on nothing but the values of their free
names (`evaluate_readAlike`), which are looked up in the binding, in the symbols and in the session,
in this order (`rootAt_eq`). The arguments of a command are only read, too (`commandValues_reads`).
-/

set_option autoImplicit false

namespace DawScript

variable {α β : Type}

namespace Run

/-- A run that only reads leaves every state as it was. -/
def Reads (x : Run α) : Prop := ∀ s, (x.exec s).2 = s

theorem reads_pure (a : α) : Reads (pure a) := fun _ => rfl

theorem reads_throw (fault : Fault) : Reads (throw fault : Run α) := fun _ => rfl

theorem reads_bind {x : Run α} {f : α → Run β} (hx : Reads x) (hf : ∀ a, Reads (f a)) :
    Reads (x >>= f) := by
  intro s
  have hs := hx s
  rw [exec_bind]
  cases hexec : x.exec s with
  | mk outcome t =>
    rw [hexec] at hs
    cases outcome with
    | error fault => exact hs
    | ok a =>
      cases hs
      exact hf a t

theorem reads_lift (result : Except Fault α) : Reads (liftM result : Run α) := by
  intro s
  rw [exec_lift]

theorem reads_evaluated (result : Except EvalFault Value) : Reads (evaluated result) := by
  cases result with
  | ok v => exact reads_pure v
  | error cause => exact reads_throw _

/-! ## Runs that read alike -/

/-- Two runs, each from a state of its own, have the same outcome and leave the states as they
were. -/
def ReadAlike (s s' : State) (x y : Run α) : Prop :=
  ∃ outcome, x.exec s = (outcome, s) ∧ y.exec s' = (outcome, s')

section ReadAlike

variable {s s' : State}

theorem readAlike_pure (a : α) : ReadAlike s s' (pure a) (pure a) := ⟨.ok a, rfl, rfl⟩

theorem readAlike_throw (fault : Fault) : ReadAlike s s' (throw fault : Run α) (throw fault) :=
  ⟨.error fault, rfl, rfl⟩

theorem ReadAlike.bind {x y : Run α} {f g : α → Run β} (hx : ReadAlike s s' x y)
    (hf : ∀ a, ReadAlike s s' (f a) (g a)) : ReadAlike s s' (x >>= f) (y >>= g) := by
  obtain ⟨outcome, hexec, hexec'⟩ := hx
  cases outcome with
  | error fault =>
    exact ⟨.error fault, exec_bind_error hexec f, exec_bind_error hexec' g⟩
  | ok a =>
    obtain ⟨outcome, hrest, hrest'⟩ := hf a
    exact ⟨outcome, (exec_bind_ok hexec f).trans hrest, (exec_bind_ok hexec' g).trans hrest'⟩

theorem readAlike_evaluated (result : Except EvalFault Value) :
    ReadAlike s s' (evaluated result) (evaluated result) := by
  cases result with
  | ok v => exact readAlike_pure v
  | error cause => exact readAlike_throw _

/-- A run that reads like itself in every state only reads. -/
theorem reads_of_readAlike {x : Run α} (h : ∀ s, ReadAlike s s x x) : Reads x := by
  intro s
  obtain ⟨outcome, hexec, -⟩ := h s
  rw [hexec]

end ReadAlike

end Run

open Run

/-! ## Dependence on free names -/

/-- What a root name stands for in a state, under a binding. -/
def rootAt (env : Env) (scope : Option Binding) (s : State) (root : String) : Except Fault Value :=
  rootValue root scope s.symbols env.session

/-- A path is followed from what its root stands for. -/
theorem exec_property (env : Env) (scope : Option Binding) (s : State) (root : String)
    (path : List String) :
    (evaluate env (.property root path) scope).exec s =
      (rootAt env scope s root >>= fun v => v.follow path, s) := by
  rw [evaluate, exec_bind_ok (exec_get s), exec_lift]
  rfl

/-- The names of the session. -/
def Session.named? (session : Session) : String → Option Value
  | "tracks" => some session.tracksValue
  | "state" => some session.toValue
  | _ => none

/-- A root name is looked up in the binding, then in the symbols, then in the session. -/
theorem rootAt_eq (env : Env) (scope : Option Binding) (s : State) (root : String) :
    rootAt env scope s root =
      (((scope.bind (·.get? root)).or (s.symbol? root)).or (env.session.bind (·.named? root))).elim
        (.error (.unknownIdentifier root)) .ok := by
  simp only [rootAt, rootValue, State.symbol?]
  cases (scope.bind (·.get? root)).or (Fields.find? root s.symbols) with
  | some v => rfl
  | none =>
    rw [Option.none_or]
    by_cases htracks : root = "tracks"
    · subst htracks
      cases env.session <;> rfl
    · by_cases hstate : root = "state"
      · subst hstate
        cases env.session <;> rfl
      · -- the session has no other names
        have hnamed : env.session.bind (·.named? root) = none := by
          cases env.session with
          | none => rfl
          | some session => simp [Session.named?]
        simp [hnamed, htracks, hstate]

section ReadAlike

variable {env env' : Env} {scope scope' : Option Binding} {s s' : State}

theorem runMethod_readAlike (target : Value) (name : String) (arguments : List Value) :
    ReadAlike s s' (runMethod target name arguments) (runMethod target name arguments) := by
  unfold runMethod
  cases Method.ofName? name with
  | some m => exact readAlike_evaluated _
  | none => exact readAlike_throw _

theorem evaluateItems_readAlike {items : List Expr}
    (h : ∀ e ∈ items, ReadAlike s s' (evaluate env e scope) (evaluate env' e scope')) :
    ReadAlike s s' (evaluateItems env items scope) (evaluateItems env' items scope') := by
  induction items with
  | nil =>
    rw [evaluateItems, evaluateItems]
    exact readAlike_pure []
  | cons e rest ih =>
    rw [evaluateItems, evaluateItems]
    apply (h e List.mem_cons_self).bind
    intro v
    apply (ih fun d hd => h d (List.mem_cons_of_mem _ hd)).bind
    exact fun others => readAlike_pure (v :: others)

theorem evaluateEntries_readAlike {entries : List (String × Expr)}
    (h : ∀ entry ∈ entries,
      ReadAlike s s' (evaluate env entry.2 scope) (evaluate env' entry.2 scope')) :
    ReadAlike s s' (evaluateEntries env entries scope) (evaluateEntries env' entries scope') := by
  induction entries with
  | nil =>
    rw [evaluateEntries, evaluateEntries]
    exact readAlike_pure []
  | cons entry rest ih =>
    rw [evaluateEntries, evaluateEntries]
    apply (h entry List.mem_cons_self).bind
    intro v
    apply (ih fun d hd => h d (List.mem_cons_of_mem _ hd)).bind
    exact fun others => readAlike_pure ((entry.1, v) :: others)

/-- An expression without calls has the same outcome wherever its free names stand for the same. -/
theorem evaluate_readAlike {e : Expr} (h : e.calls = [])
    (hroots : ∀ root ∈ e.free, rootAt env scope s root = rootAt env' scope' s' root) :
    ReadAlike s s' (evaluate env e scope) (evaluate env' e scope') := by
  induction e using Expr.rec' with
  | literal v =>
    rw [evaluate, evaluate]
    exact readAlike_pure v
  | list items ih =>
    rw [Expr.calls, Expr.itemCalls_eq, List.flatMap_eq_nil_iff] at h
    rw [Expr.free] at hroots
    rw [evaluate, evaluate]
    apply ReadAlike.bind
    · apply evaluateItems_readAlike
      intro e he
      exact ih e he (h e he) fun root hroot => hroots root (Expr.free_subset_itemsFree he hroot)
    · exact fun values => readAlike_pure (Value.list values)
  | map entries ih =>
    rw [Expr.calls, Expr.entryCalls_eq, List.flatMap_eq_nil_iff] at h
    rw [Expr.free] at hroots
    rw [evaluate, evaluate]
    apply ReadAlike.bind
    · apply evaluateEntries_readAlike
      intro entry hentry
      exact ih entry hentry (h entry.2 (List.mem_map_of_mem hentry)) fun root hroot =>
        hroots root (Expr.free_subset_entriesFree hentry hroot)
    · exact fun fields => readAlike_pure (Value.map (Fields.ofList fields))
  | property root path =>
    have hroot := hroots root (by rw [Expr.free]; exact List.mem_singleton_self root)
    refine ⟨_, exec_property env scope s root path, ?_⟩
    rw [hroot]
    exact exec_property env' scope' s' root path
  | binary op left right ihl ihr =>
    rw [Expr.calls, List.append_eq_nil_iff] at h
    rw [Expr.free] at hroots
    rw [evaluate, evaluate]
    apply (ihl h.1 fun root hroot => hroots root (List.mem_append_left _ hroot)).bind
    intro l
    apply (ihr h.2 fun root hroot => hroots root (List.mem_append_right _ hroot)).bind
    exact fun r => readAlike_evaluated (op.apply l r)
  | unary op operand ih =>
    rw [Expr.calls] at h
    rw [Expr.free] at hroots
    rw [evaluate, evaluate]
    apply (ih h hroots).bind
    exact fun v => readAlike_evaluated (op.apply v)
  | method target name arguments iht iha =>
    rw [Expr.calls, List.append_eq_nil_iff, Expr.itemCalls_eq, List.flatMap_eq_nil_iff] at h
    rw [Expr.free] at hroots
    rw [evaluate, evaluate]
    apply (iht h.1 fun root hroot => hroots root (List.mem_append_left _ hroot)).bind
    intro v
    apply ReadAlike.bind
    · apply evaluateItems_readAlike
      intro e he
      exact iha e he (h.2 e he) fun root hroot =>
        hroots root (List.mem_append_right _ (Expr.free_subset_itemsFree he hroot))
    · exact fun values => runMethod_readAlike v name values
  | call name arguments _ _ =>
    rw [Expr.calls] at h
    cases h
  | function name arguments _ =>
    rw [evaluate, evaluate]
    exact readAlike_throw _

/-- An expression without calls only reads. -/
theorem evaluate_reads {e : Expr} (h : e.calls = []) : (evaluate env e scope).Reads :=
  reads_of_readAlike fun _ => evaluate_readAlike h fun _ _ => rfl

end ReadAlike

/-! ## Arguments of commands -/

/-- The values of arguments without calls are only read. -/
theorem argumentValues_reads (env : Env) {given : List (String × Expr)} (scope : Option Binding)
    (h : ∀ p e, given.lookup p = some e → e.calls = []) (parameters : List String) :
    (argumentValues (mapGiven (meaning env) given) scope parameters).Reads := by
  rw [argumentValues_eq, map_eq_pure_bind]
  refine reads_bind (reads_of_readAlike fun s => ?_) fun values => reads_pure _
  apply evaluateItems_readAlike
  intro e he
  obtain ⟨p, hp⟩ := lookup_of_mem_inParameterOrder he
  exact evaluate_readAlike (h p e hp) fun _ _ => rfl

theorem commandValues_reads (env : Env) (c : Command) {arguments : List (Arg Expr)}
    (h : Expr.argumentCalls arguments = []) (scope : Option Binding) :
    (commandValues c (meanings env arguments) scope).Reads := by
  simp only [commandValues, meanings_eq_map, assign_map, Run.lift_map_bind]
  cases hassign : assign c.parameters arguments with
  | error fault =>
    rw [lift_error_bind]
    exact reads_throw fault
  | ok given =>
    rw [lift_ok_bind]
    exact argumentValues_reads env scope (Expr.calls_of_lookup h hassign) c.parameters

end DawScript
