import DawScript.Proofs.CommandEffect
import DawScript.Proofs.RunRelation

/-!
# Runs only append

No run takes back an action or an item passed over: the state that it leaves extends the one that it
began with (`runCalls_appends`), on success and on failure.
-/

set_option autoImplicit false

namespace DawScript

variable {α β : Type}

/-- A state has all actions and all items passed over of another one before its own. -/
structure State.Extends (s t : State) : Prop where
  actions : s.actions.toList <+: t.actions.toList
  skipped : s.skipped.toList <+: t.skipped.toList

namespace State.Extends

variable {s t u : State}

theorem refl (s : State) : s.Extends s := ⟨List.prefix_rfl, List.prefix_rfl⟩

theorem trans (h : s.Extends t) (h' : t.Extends u) : s.Extends u :=
  ⟨h.actions.trans h'.actions, h.skipped.trans h'.skipped⟩

theorem emit (s : State) (a : Action) : s.Extends (s.emit a) := by
  refine ⟨?_, List.prefix_rfl⟩
  rw [State.emit, Array.toList_push]
  exact List.prefix_append _ _

theorem skip (s : State) (item : SkippedItem) : s.Extends (s.skip item) := by
  refine ⟨List.prefix_rfl, ?_⟩
  rw [State.skip, Array.toList_push]
  exact List.prefix_append _ _

/-- Only the actions and the items passed over count. -/
theorem of_eq (hactions : t.actions = s.actions) (hskipped : t.skipped = s.skipped) :
    s.Extends t := by
  constructor
  · exact hactions ▸ List.prefix_rfl
  · exact hskipped ▸ List.prefix_rfl

end State.Extends

/-- The effect of a command keeps the actions before it. -/
theorem Command.Does.extends {env : Env} {s t : State} {c : Command} (h : Does env s c t) :
    s.Extends t := by
  cases h with
  | aim track => exact .of_eq rfl rfl
  | create instrument name index next =>
    have hmoved : s.Extends { s with target := index, counter := next } := .of_eq rfl rfl
    exact hmoved.trans (.emit _ _)
  | _ => exact .emit s _

namespace Run

/-- A run only appends. -/
def Appends (x : Run α) : Prop := ∀ s : State, s.Extends (x.exec s).2

theorem appends_pure (a : α) : Appends (pure a) := fun s => .refl s

theorem appends_throw (fault : Fault) : Appends (throw fault : Run α) := fun s => .refl s

theorem appends_bind {x : Run α} {f : α → Run β} (hx : Appends x) (hf : ∀ a, Appends (f a)) :
    Appends (x >>= f) := by
  intro s
  have hs := hx s
  rw [exec_bind]
  generalize x.exec s = result at hs
  rcases result with ⟨_ | a, t⟩
  · exact hs
  · exact hs.trans (hf a t)

theorem appends_get_map (f : State → α) : Appends (f <$> (get : Run State)) := fun s => .refl s

theorem appends_store (name : String) (v : Value) : Appends (store name v) :=
  fun _ => .of_eq rfl rfl

theorem appends_command (env : Env) (c : Command) (values : Values) :
    Appends (c.run env values) := by
  intro s
  rcases Command.exec_run env s values c with ⟨fault, h⟩ | ⟨t, h, hdoes⟩
  · rw [h]
    exact .refl s
  · rw [h]
    exact hdoes.extends

theorem appends_aimedAt {x : Run Unit} (track : Int64) (hx : Appends x) :
    Appends (aimedAt track x) := by
  intro s
  rw [exec_aimedAt]
  have hrun := hx { s with target := track }
  exact ⟨hrun.actions, hrun.skipped⟩

theorem appends_within {x : Run Value} (name written : String) (hx : Appends x) :
    Appends (tryCatch x fun fault => throw (fault.within name written)) := by
  intro s
  rw [exec_within]
  exact hx s

theorem appends_settle {x : Run Value} (env : Env) (c : Combinator) (position : Nat)
    (hx : Appends x) : Appends (settle env c position x) := by
  intro s
  have hs := hx s
  rw [exec_settle]
  generalize x.exec s = result at hs
  rcases result with ⟨fault | v, t⟩
  · simp only
    split
    · exact hs
    · exact hs.trans (.skip t _)
  · exact hs

end Run

/-- Scripts only append. -/
def growth (env : Env) : RunProperty env where
  holds := Run.Appends
  pure := Run.appends_pure
  throw := Run.appends_throw
  bind := Run.appends_bind
  symbols := Run.appends_get_map _
  target := Run.appends_get_map _
  store := Run.appends_store
  command := Run.appends_command env
  aimedAt := Run.appends_aimedAt
  within := Run.appends_within
  settle := Run.appends_settle env

theorem evaluate_appends (env : Env) (e : Expr) (scope : Option Binding) :
    (evaluate env e scope).Appends :=
  ((growth env).relation.evaluate e scope).2

theorem runCalls_appends (env : Env) (calls : List Call) : (runCalls env calls).Appends :=
  ((growth env).relation.runCalls calls).2

end DawScript
