import DawScript.Proofs.Growth

/-!
# Strict and lenient runs

A strict run does what the lenient run of the same calls does, up to the first item that the lenient
run passes over: there it fails, with the fault that the lenient run records
(`strict_run_follows_lenient`). The two runs are related step by step (`Run.Follows`), and the
unwinding of the strict run after its fault neither emits an action nor names a second call.
-/

set_option autoImplicit false

namespace DawScript

variable {α β : Type}

/-- The environment with strict or with lenient combinators. -/
def Env.withStrict (env : Env) (strict : Bool) : Env :=
  { env with config := { env.config with strict := strict } }

/-- A fault accounts for a reason: the reason is its wording, or that of the fault it names the call
of. -/
def Fault.Explains (fault : Fault) (reason : String) : Prop :=
  reason = fault.message ∨
    ∃ call arguments source, fault = .inCall call arguments source ∧ reason = source.message

/-- Naming the call of a fault keeps what it accounts for, since no fault names two calls. -/
theorem Fault.explains_within {fault : Fault} {reason : String} (h : fault.Explains reason)
    (name written : String) : (fault.within name written).Explains reason := by
  unfold Fault.within
  split
  · exact h
  · next hcall =>
    rcases h with rfl | ⟨call, arguments, source, rfl, -⟩
    · exact Or.inr ⟨name, written, fault, rfl, rfl⟩
    · exact absurd rfl hcall

namespace Run

/-- The strict run `y` follows the lenient run `x`: it is the same as long as `x` passes over
nothing, and otherwise it fails with a fault that accounts for the first item passed over. -/
structure Follows (x y : Run α) : Prop where
  appends : Appends x
  appends_strict : Appends y
  same_or_fails : ∀ s : State,
    ((x.exec s).2.skipped = s.skipped ∧ y.exec s = x.exec s) ∨
      ∃ item rest fault t, (x.exec s).2.skipped.toList = s.skipped.toList ++ item :: rest ∧
        y.exec s = (.error fault, t) ∧ t.actions.toList <+: (x.exec s).2.actions.toList ∧
        fault.Explains item.reason

/-- A run that appends nothing to the items passed over follows itself. -/
theorem follows_self {x : Run α} (happends : Appends x)
    (h : ∀ s : State, (x.exec s).2.skipped = s.skipped) : Follows x x :=
  ⟨happends, happends, fun s => Or.inl ⟨h s, rfl⟩⟩

theorem follows_bind {x y : Run α} {f g : α → Run β} (h : Follows x y)
    (hf : ∀ a, Follows (f a) (g a)) : Follows (x >>= f) (y >>= g) := by
  refine ⟨appends_bind h.appends fun a => (hf a).appends,
    appends_bind h.appends_strict fun a => (hf a).appends_strict, ?_⟩
  intro s
  rcases h.same_or_fails s with ⟨hskipped, hsame⟩ |
    ⟨item, rest, fault, t, hskipped, hy, hactions, hr⟩
  · -- nothing is passed over yet, so the second parts begin in the same state
    rw [exec_bind y, hsame, exec_bind x]
    generalize x.exec s = result at hskipped
    rcases result with ⟨_ | a, t⟩
    · exact Or.inl ⟨hskipped, rfl⟩
    · simp only at hskipped ⊢
      rw [← hskipped]
      exact (hf a).same_or_fails t
  · -- the strict run is over with the first part
    apply Or.inr
    rw [exec_bind_error hy, exec_bind]
    generalize x.exec s = result at hskipped hactions
    rcases result with ⟨_ | a, u⟩
    · exact ⟨item, rest, fault, t, hskipped, rfl, hactions, hr⟩
    · -- the lenient run goes on, which only appends
      have hmore := (hf a).appends u
      obtain ⟨others, hothers⟩ := hmore.skipped
      refine ⟨item, rest ++ others, fault, t, ?_, rfl, hactions.trans hmore.actions, hr⟩
      rw [← hothers, hskipped, List.append_assoc, List.cons_append]

/-- Whether combinators are strict makes no difference to commands. -/
theorem run_withStrict (env : Env) (strict : Bool) (c : Command) (values : Values) :
    c.run (env.withStrict strict) values = c.run env values := by
  cases c <;> rfl

theorem follows_command (env : Env) (c : Command) (values : Values) :
    Follows (c.run (env.withStrict false) values) (c.run (env.withStrict true) values) := by
  rw [run_withStrict, run_withStrict]
  apply follows_self (appends_command env c values)
  intro s
  rcases Command.exec_run env s values c with ⟨fault, h⟩ | ⟨t, h, hdoes⟩
  · rw [h]
  · rw [h]
    cases hdoes <;> rfl

theorem follows_aimedAt {x y : Run Unit} (track : Int64) (h : Follows x y) :
    Follows (aimedAt track x) (aimedAt track y) := by
  refine ⟨appends_aimedAt track h.appends, appends_aimedAt track h.appends_strict, ?_⟩
  intro s
  rw [exec_aimedAt, exec_aimedAt]
  rcases h.same_or_fails { s with target := track } with
    ⟨hskipped, hsame⟩ | ⟨item, rest, fault, t, hskipped, hy, hactions, hr⟩
  · rw [hsame]
    exact Or.inl ⟨hskipped, rfl⟩
  · rw [hy]
    exact Or.inr ⟨item, rest, fault, _, hskipped, rfl, hactions, hr⟩

theorem follows_within {x y : Run Value} (name written : String) (h : Follows x y) :
    Follows (tryCatch x fun fault => throw (fault.within name written))
      (tryCatch y fun fault => throw (fault.within name written)) := by
  refine ⟨appends_within name written h.appends, appends_within name written h.appends_strict,
    ?_⟩
  intro s
  rw [exec_within, exec_within]
  rcases h.same_or_fails s with ⟨hskipped, hsame⟩ |
    ⟨item, rest, fault, t, hskipped, hy, hactions, hr⟩
  · rw [hsame]
    exact Or.inl ⟨hskipped, rfl⟩
  · -- only the wording of the fault changes, and it still accounts for the item
    rw [hy]
    exact Or.inr ⟨item, rest, _, t, hskipped, rfl, hactions, Fault.explains_within hr name written⟩

/-- Settling an item is where the two runs part: the lenient run records the fault of the item and
the strict run ends with it. -/
theorem follows_settle (env : Env) {x y : Run Value} (c : Combinator) (position : Nat)
    (h : Follows x y) :
    Follows (settle (env.withStrict false) c position x)
      (settle (env.withStrict true) c position y) := by
  refine ⟨appends_settle _ c position h.appends, appends_settle _ c position h.appends_strict,
    ?_⟩
  intro s
  have hlenient : (env.withStrict false).config.strict = false := rfl
  have hstrict : (env.withStrict true).config.strict = true := rfl
  simp only [exec_settle, hlenient, hstrict, Bool.false_eq_true, if_false, if_true]
  rcases h.same_or_fails s with ⟨hskipped, hsame⟩ |
    ⟨item, rest, fault, t, hskipped, hy, hactions, hr⟩
  · rw [hsame]
    generalize x.exec s = result at hskipped
    rcases result with ⟨fault | v, t⟩
    · -- the first item that is passed over
      refine Or.inr ⟨⟨c.name, position, fault.message⟩, [], fault, t, ?_, rfl, List.prefix_rfl,
        Or.inl rfl⟩
      simp only at hskipped ⊢
      rw [State.skip, Array.toList_push, hskipped]
    · exact Or.inl ⟨hskipped, rfl⟩
  · -- an item inside was passed over before, and this one only comes after it
    rw [hy]
    generalize x.exec s = result at hskipped hactions
    rcases result with ⟨fault' | v, u⟩
    · refine Or.inr ⟨item, rest ++ [⟨c.name, position, fault'.message⟩], fault, t, ?_, rfl,
        hactions, hr⟩
      simp only at hskipped ⊢
      rw [State.skip, Array.toList_push, hskipped, List.append_assoc, List.cons_append]
    · exact Or.inr ⟨item, rest, fault, t, hskipped, rfl, hactions, hr⟩

end Run

/-- The strict runs of scripts follow the lenient ones. -/
def strictness (env : Env) : RunRelation (env.withStrict false) (env.withStrict true) where
  rel := Run.Follows
  session_eq := rfl
  fx_eq := rfl
  pure a := Run.follows_self (Run.appends_pure a) fun _ => rfl
  throw fault := Run.follows_self (Run.appends_throw fault) fun _ => rfl
  bind := Run.follows_bind
  symbols := Run.follows_self (Run.appends_get_map _) fun _ => rfl
  target := Run.follows_self (Run.appends_get_map _) fun _ => rfl
  store name v := Run.follows_self (Run.appends_store name v) fun _ => rfl
  command c values := Run.follows_command env c values
  aimedAt := Run.follows_aimedAt
  within := Run.follows_within
  settle := Run.follows_settle env

/-- A fault that ends a run of calls names the call in which it arose. -/
theorem isInCall_of_runCalls (env : Env) (calls : List Call) :
    ∀ {s t : State} {fault : Fault}, (runCalls env calls).exec s = (.error fault, t) →
      fault.isInCall = true := by
  induction calls with
  | nil =>
    intro s t fault h
    cases h
  | cons c rest ih =>
    intro s t fault h
    rw [runCalls, Run.exec_bind, Call.run, runCall, Run.exec_within] at h
    generalize (runNamed env c.name (operands env c.arguments) none).exec s = result at h
    rcases result with ⟨cause | v, u⟩
    · cases h
      exact Fault.isInCall_within _ _ cause
    · exact ih h

theorem isInCall_iff {fault : Fault} :
    fault.isInCall = true ↔ ∃ call arguments source, fault = .inCall call arguments source := by
  cases fault <;> simp [Fault.isInCall]

/-- Where the lenient run passes over nothing, the strict run of the same calls has the same outcome
and leaves the same state. Otherwise the strict run fails in a call with what the lenient run
records first, and has emitted a beginning of what the lenient run emits. -/
theorem strict_run_follows_lenient (env : Env) (calls : List Call) (actions : Array Action) :
    (((env.withStrict false).final calls actions).skipped = #[] →
      interpret (env.withStrict true) calls actions =
          interpret (env.withStrict false) calls actions ∧
        (env.withStrict true).final calls actions = (env.withStrict false).final calls actions) ∧
    ∀ item rest, ((env.withStrict false).final calls actions).skipped.toList = item :: rest →
      ∃ call arguments source emitted more,
        (interpret (env.withStrict true) calls actions).1 =
          .error (.inCall call arguments source) ∧
        (interpret (env.withStrict true) calls actions).2.toList = actions.toList ++ emitted ∧
        (interpret (env.withStrict false) calls actions).2.toList =
          actions.toList ++ (emitted ++ more) ∧
        (item.reason = (Fault.inCall call arguments source).message ∨
          item.reason = source.message) := by
  have hfollows := (strictness env).runCalls calls
  -- the two runs begin in the same state
  have hstart : (env.withStrict true).initial actions = (env.withStrict false).initial actions :=
    rfl
  have hskippedStart := initial_skipped (env.withStrict false) actions
  have hactionsStart := initial_actions (env.withStrict true) actions
  rw [interpret_actions, interpret_actions]
  rcases hfollows.same_or_fails ((env.withStrict false).initial actions) with
    ⟨hskipped, hsame⟩ | ⟨item, rest, fault, t, hskipped, hy, hactions, hr⟩
  · refine ⟨fun _ => ⟨?_, ?_⟩, ?_⟩
    · rw [interpret_eq, interpret_eq, hstart, hsame]
    · rw [Env.final, Env.final, hstart, hsame]
    · -- a run that passes over nothing has no first item passed over
      intro item rest hitem
      rw [Env.final, hskipped, hskippedStart] at hitem
      cases hitem
  · rw [hskippedStart, Array.toList_empty, List.nil_append] at hskipped
    constructor
    · intro hempty
      rw [Env.final] at hempty
      rw [hempty] at hskipped
      cases hskipped
    · intro first others hitem
      rw [Env.final, hskipped] at hitem
      cases hitem
      -- the strict run stopped inside a call, with a beginning of what the lenient run emits
      obtain ⟨call, arguments, source, rfl⟩ := isInCall_iff.1 (isInCall_of_runCalls _ _ hy)
      have hfinal : (env.withStrict true).final calls actions = t := by
        rw [Env.final, hstart, hy]
      have hextends := hfollows.appends_strict ((env.withStrict true).initial actions)
      rw [← Env.final, hfinal] at hextends
      obtain ⟨emitted, hemitted⟩ := hextends.actions
      obtain ⟨more, hmore⟩ := hactions
      rw [hactionsStart] at hemitted
      refine ⟨call, arguments, source, emitted, more, ?_, ?_, ?_, ?_⟩
      · rw [interpret_eq, hstart, hy]
      · rw [hfinal, hemitted]
      · rw [← List.append_assoc, hemitted]
        exact hmore.symm
      · rcases hr with hmessage | ⟨call', arguments', source', heq, hsource⟩
        · exact Or.inl hmessage
        · cases heq
          exact Or.inr hsource

end DawScript
