import DawScript.Proofs.CommandEffect
import DawScript.Proofs.RunRelation
import DawScript.Proofs.Task

/-!
# Invariants of runs

What every effect of a command keeps, and aiming, storing and passing over an item keep, holds in
every state that a run leads to (`StateInvariant.of_reaches`).
-/

set_option autoImplicit false

namespace DawScript

variable {α β : Type}

/-- A property of states that every step of a run keeps. -/
structure StateInvariant (env : Env) (I : State → Prop) : Prop where
  aimed {s : State} (track : Int64) : I s → I { s with target := track }
  stored {s : State} (name : String) (v : Value) : I s → I (s.store name v)
  skipped {s : State} (item : SkippedItem) : I s → I (s.skip item)
  commanded {s t : State} {c : Command} : I s → c.Does env s t → I t

namespace Run

/-- A run keeps a property of states, also if it fails. -/
def Maintains (I : State → Prop) (x : Run α) : Prop := ∀ s, I s → I (x.exec s).2

theorem maintains_bind {I : State → Prop} {x : Run α} {f : α → Run β} (hx : Maintains I x)
    (hf : ∀ a, Maintains I (f a)) : Maintains I (x >>= f) := by
  intro s hs
  have ht := hx s hs
  rw [exec_bind]
  generalize x.exec s = result at ht
  rcases result with ⟨_ | a, t⟩
  · exact ht
  · exact hf a t ht

theorem maintains_within {I : State → Prop} {x : Run Value} (name written : String)
    (hx : Maintains I x) :
    Maintains I (tryCatch x fun fault => throw (fault.within name written)) := by
  intro s hs
  rw [exec_within]
  exact hx s hs

end Run

namespace StateInvariant

variable {env : Env} {I : State → Prop} (h : StateInvariant env I)

include h in
theorem maintains_command (c : Command) (values : Values) :
    (c.run env values).Maintains I := by
  intro s hs
  rcases Command.exec_run env s values c with ⟨fault, hrun⟩ | ⟨t, hrun, hdoes⟩
  · rw [hrun]
    exact hs
  · rw [hrun]
    exact h.commanded hs hdoes

include h in
theorem maintains_settle {x : Run Value} (c : Combinator) (position : Nat)
    (hx : x.Maintains I) : (settle env c position x).Maintains I := by
  intro s hs
  have ht := hx s hs
  rw [Run.exec_settle]
  generalize x.exec s = result at ht
  rcases result with ⟨fault | v, t⟩
  · simp only
    split
    · exact ht
    · exact h.skipped _ ht
  · exact ht

/-- An invariant as a property of runs. -/
def property : RunProperty env where
  holds := Run.Maintains I
  pure _ _ hs := hs
  throw _ _ hs := hs
  bind := Run.maintains_bind
  symbols _ hs := hs
  target _ hs := hs
  store name v _ hs := h.stored name v hs
  command := h.maintains_command
  aimedAt track hx s hs := h.aimed s.target (hx _ (h.aimed track hs))
  within := Run.maintains_within
  settle := h.maintains_settle

/-- An invariant as a relation of a run with itself. -/
def relation : RunRelation env env := h.property.relation

include h

theorem maintains_evaluate (e : Expr) (scope : Option Binding) :
    (evaluate env e scope).Maintains I :=
  (h.relation.evaluate e scope).2

theorem maintains_commandValues (c : Command) (arguments : List (Arg Expr))
    (scope : Option Binding) :
    (commandValues c (meanings env arguments) scope).Maintains I := by
  rw [meanings_eq_map]
  exact (h.relation.commandValues c scope fun a _ => h.relation.evaluate a.value).2

theorem maintains_settle_callback {function : Expr} {f : Callback}
    (hf : callback env (operand env function) = .ok f) (c : Combinator) (position : Nat)
    (scope : Binding) : (settle env c position (f scope)).Maintains I :=
  h.maintains_settle c position (h.property.holds_callback hf scope)

/-- A task keeps an invariant up to the tasks that it begins. -/
theorem of_begins {p q : Task × State} (hbegin : Begins env p q) (hp : I p.2) : I q.2 := by
  -- the state at the beginning of a later task is one that an earlier part has left
  have hafter {γ : Type} {x : Run γ} {s t : State} {outcome : Except Fault γ}
      (hx : x.Maintains I) (hexec : x.exec s = (outcome, t)) (hs : I s) : I t := by
    have ht := hx s hs
    rwa [hexec] at ht
  cases hbegin with
  | next e es scope s t v hexec => exact hafter (h.maintains_evaluate e scope) hexec hp
  | command c name arguments values scope s t _ hexec =>
    exact hafter (h.maintains_commandValues c arguments scope) hexec hp
  | visit c name arguments function source f items itemName scope s t _ hexec =>
    exact hafter (h.relation.collection (h.relation.evaluate source) scope).2 hexec hp
  | reduceInitial name arguments given function source initial r items scope s t _ _ _ _ hexec =>
    exact hafter (h.relation.collection (h.relation.evaluate source) scope).2 hexec hp
  | storeValue name arguments given nameSource source key scope s t _ _ _ hexec =>
    exact hafter (h.relation.storeName (h.relation.evaluate nameSource) scope).2 hexec hp
  | itemCommand c name inner command arguments values position item rest s t _ hexec =>
    exact hafter (h.maintains_commandValues command arguments _) hexec hp
  | itemTrack c name inner command arguments values position item rest index s t _ hexec =>
    exact h.aimed index (hafter (h.maintains_commandValues command arguments _) hexec hp)
  | nextItem c name function f position item rest outcome s t hf hexec =>
    exact hafter (h.maintains_settle_callback hf c position ⟨name, item⟩) hexec hp
  | _ => exact hp

/-- What holds at the start and is kept by every step holds in all states that a run leads to. -/
theorem of_reaches {calls : List Call} {actions : Array Action} {task : Task} {s : State}
    (hinitial : I (env.initial actions)) (hreach : env.Reaches calls actions task s) : I s := by
  have hall {q : Task × State}
      (hq : Reaches env (.evaluateAll (calls.map Call.expr) none, env.initial actions) q) :
      I q.2 := by
    -- by induction on the chain of tasks
    induction hq with
    | refl => exact hinitial
    | tail _ hbegin ih => exact h.of_begins hbegin ih
  exact hall hreach

end StateInvariant

end DawScript
