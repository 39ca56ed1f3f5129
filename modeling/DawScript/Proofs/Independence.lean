import DawScript.Proofs.CommandSteps
import DawScript.Proofs.RunRelation

/-!
# Runs do not see what came before

No run looks at the actions emitted or at the items passed over so far: begun after others, it has
the same outcome and appends the same (`runCalls_oblivious`), so an interpretation only depends on
its calls and its environment (`interpret_after`).
-/

set_option autoImplicit false

namespace DawScript

variable {α β : Type}

/-- A state as it would be after other actions and other items passed over. -/
def State.after (actions : Array Action) (skipped : Array SkippedItem) (s : State) : State :=
  { s with actions := actions ++ s.actions, skipped := skipped ++ s.skipped }

namespace State

variable (actions : Array Action) (skipped : Array SkippedItem) (s : State)

theorem after_emit (a : Action) :
    (s.after actions skipped).emit a = (s.emit a).after actions skipped := by
  simp only [after, emit, Array.push_append]

theorem after_skip (item : SkippedItem) :
    (s.after actions skipped).skip item = (s.skip item).after actions skipped := by
  simp only [after, skip, Array.push_append]

/-- Every state is one after the items that it has passed over. -/
theorem after_skipped : ({ s with skipped := #[] } : State).after #[] s.skipped = s := by
  simp only [after, Array.empty_append, Array.append_empty]

end State

namespace Run

/-- A run does not see the actions and the items passed over before it: after more of them it does
the same. -/
def Oblivious (x : Run α) : Prop := ∀ actions skipped s,
  x.exec (State.after actions skipped s) =
    ((x.exec s).1, (x.exec s).2.after actions skipped)

theorem oblivious_bind {x : Run α} {f : α → Run β} (hx : Oblivious x)
    (hf : ∀ a, Oblivious (f a)) : Oblivious (x >>= f) := by
  intro actions skipped s
  rw [exec_bind, exec_bind, hx actions skipped s]
  rcases x.exec s with ⟨fault | a, t⟩
  · rfl
  · exact hf a actions skipped t

theorem oblivious_track (env : Env) (call : String) : Oblivious (track env call) := by
  intro actions skipped s
  -- the track that a state is aimed at is there before and after
  have haimed : env.aimed? (s.after actions skipped) = env.aimed? s := rfl
  rw [exec_track, exec_track, haimed]
  cases env.aimed? s <;> rfl

theorem oblivious_countFrom (index : Int64) : Oblivious (countFrom index) := by
  intro actions skipped s
  rw [exec_countFrom, exec_countFrom]
  cases word? (index.toInt + 1) <;> rfl

theorem oblivious_emit (kind : ActionKind) (fields : List (String × Value)) :
    Oblivious (emit kind fields) := by
  intro actions skipped s
  simp only [exec_emit, State.after_emit]

theorem oblivious_aimedAt {x : Run Unit} (track : Int64) (hx : Oblivious x) :
    Oblivious (aimedAt track x) := by
  intro actions skipped s
  have hcommute : ({ s.after actions skipped with target := track } : State) =
      State.after actions skipped { s with target := track } := rfl
  rw [exec_aimedAt, exec_aimedAt, hcommute, hx actions skipped]
  rfl

theorem oblivious_within {x : Run Value} (name written : String) (hx : Oblivious x) :
    Oblivious (tryCatch x fun fault => throw (fault.within name written)) := by
  intro actions skipped s
  rw [exec_within, exec_within, hx actions skipped s]

theorem oblivious_settle (env : Env) {x : Run Value} (c : Combinator) (position : Nat)
    (hx : Oblivious x) : Oblivious (settle env c position x) := by
  intro actions skipped s
  rw [exec_settle, exec_settle, hx actions skipped s]
  rcases x.exec s with ⟨fault | v, t⟩
  · simp only
    split
    · rfl
    · rw [State.after_skip]
  · rfl

end Run

/-- Obliviousness as a property of commands. -/
def commandObliviousness (env : Env) : CommandProperty env where
  holds := Run.Oblivious
  pure _ _ _ _ := rfl
  throw _ _ _ _ := rfl
  bind := Run.oblivious_bind
  track := Run.oblivious_track env
  counter _ _ _ := rfl
  countFrom := Run.oblivious_countFrom
  aim _ _ _ _ := rfl
  emit := Run.oblivious_emit

/-- Obliviousness as a property of scripts. -/
def obliviousness (env : Env) : RunProperty env where
  holds := Run.Oblivious
  pure _ _ _ _ := rfl
  throw _ _ _ _ := rfl
  bind := Run.oblivious_bind
  symbols _ _ _ := rfl
  target _ _ _ := rfl
  store _ _ _ _ _ := rfl
  command := (commandObliviousness env).run
  aimedAt := Run.oblivious_aimedAt
  within := Run.oblivious_within
  settle := Run.oblivious_settle env

theorem runCalls_oblivious (env : Env) (calls : List Call) : (runCalls env calls).Oblivious :=
  ((obliviousness env).relation.runCalls calls).2

/-- A callback does not see what other items have left, whatever nested calls it makes. -/
theorem runCommandOnItem_oblivious (env : Env) (c : Command) (arguments : List (Arg Expr))
    (scope : Binding) : (runCommandOnItem env c (meanings env arguments) scope).Oblivious := by
  rw [meanings_eq_map]
  exact ((obliviousness env).relation.runCommandOnItem c scope
    fun a _ => (obliviousness env).relation.evaluate a.value).2

/-! ## Interpretations -/

theorem initial_after (env : Env) (actions : Array Action) :
    env.initial actions = (env.initial #[]).after actions #[] := by
  unfold Env.initial
  cases env.session <;> simp [State.after, State.fresh, State.store]

/-- An interpretation after other actions has the same outcome and appends the same actions as one
that begins with none. -/
theorem interpret_after (env : Env) (calls : List Call) (actions : Array Action) :
    interpret env calls actions =
      ((interpret env calls #[]).1, actions ++ (interpret env calls #[]).2) := by
  rw [interpret_eq, interpret_eq, initial_after, runCalls_oblivious env calls]
  rcases (runCalls env calls).exec (env.initial #[]) with ⟨fault | _, t⟩
  · rfl
  · -- the actions appended are counted from where the run began
    have hsize : (t.after actions #[]).actions.size = actions.size ↔
        t.actions.size = (#[] : Array Action).size := by
      simp [State.after]
    simp only [hsize]
    split
    · rfl
    · simp [State.after]

end DawScript
