import DawScript.Proofs.TaskInduction

/-!
# Where actions come from

Every action that a run appends was emitted by a command that the run leads to, in the state in
which that command began (`runCalls_accounts`). What a task accounts for, every task that leads to
it accounts for too.
-/

set_option autoImplicit false

namespace DawScript

variable {α β : Type} {env : Env}

/-- Between two states only actions are appended that were emitted by commands which a task leads
to. -/
structure Accounts (env : Env) (p : Task × State) (s t : State) : Prop where
  kept : s.actions.toList <+: t.actions.toList
  emitted : ∀ i a, s.actions.size ≤ i → t.actions[i]? = some a →
    ∃ c values u v, Reaches env p (.command c values, u) ∧
      (c.run env values).exec u = (.ok (), v) ∧ u.actions.size = i ∧
      v.actions = u.actions.push a

namespace Accounts

variable {p q : Task × State} {s t u : State}

/-- Nothing appended needs no account. -/
theorem of_eq (h : t.actions = s.actions) : Accounts env p s t := by
  refine ⟨h ▸ List.prefix_rfl, ?_⟩
  intro i a hi ha
  rw [h, Array.getElem?_eq_none hi] at ha
  cases ha

theorem trans (h : Accounts env p s t) (h' : Accounts env p t u) : Accounts env p s u := by
  refine ⟨h.kept.trans h'.kept, ?_⟩
  intro i a hi ha
  by_cases hlt : i < t.actions.size
  · -- the action was there already in between
    apply h.emitted i a hi
    obtain ⟨rest, hrest⟩ := h'.kept
    rw [← Array.getElem?_toList] at ha ⊢
    rwa [← hrest, List.getElem?_append_left (by simpa using hlt)] at ha
  · exact h'.emitted i a (Nat.not_lt.1 hlt) ha

/-- What a later task accounts for, a task that leads to it accounts for too. -/
theorem of_reaches (hreach : Reaches env p q) (h : Accounts env q s t) : Accounts env p s t := by
  refine ⟨h.kept, ?_⟩
  intro i a hi ha
  obtain ⟨c, values, u, v, hu, hrest⟩ := h.emitted i a hi ha
  exact ⟨c, values, u, v, hreach.trans hu, hrest⟩

theorem of_begins (hbegin : Begins env p q) (h : Accounts env q s t) : Accounts env p s t :=
  of_reaches (.single hbegin) h

/-- A command accounts for the action that it emits. -/
theorem command (c : Command) (values : Values) (s : State) :
    Accounts env (.command c values, s) s ((c.run env values).exec s).2 := by
  rcases Command.exec_run env s values c with ⟨fault, h⟩ | ⟨t, h, hdoes⟩
  · rw [h]
    exact of_eq rfl
  · have hself {a : Action} (ht : t.actions = s.actions.push a) :
        Accounts env (.command c values, s) s t := by
      -- the only action appended is the last one
      refine ⟨?_, fun i b hi hb => ⟨c, values, s, t, .refl, h, ?_⟩⟩
      · rw [ht, Array.toList_push]
        exact List.prefix_append _ _
      · rw [ht, Array.getElem?_push] at hb
        split at hb
        · next heq =>
          cases hb
          exact ⟨heq.symm, ht⟩
        · rw [Array.getElem?_eq_none hi] at hb
          cases hb
    rw [h]
    cases hdoes with
    | aim track => exact of_eq rfl
    | _ => exact hself rfl

end Accounts

/-! ## Steps -/

section Steps

variable {p : Task × State} {s : State}

theorem accounts_bind {x : Run α} {f : α → Run β} (hx : Accounts env p s (x.exec s).2)
    (hf : ∀ a t, x.exec s = (.ok a, t) → Accounts env p t ((f a).exec t).2) :
    Accounts env p s ((x >>= f).exec s).2 := by
  rw [Run.exec_bind]
  cases hexec : x.exec s with
  | mk outcome t =>
    rw [hexec] at hx
    cases outcome with
    | error fault => exact hx
    | ok a => exact hx.trans (hf a t hexec)

theorem accounts_settle {x : Run Value} (c : Combinator) (position : Nat)
    (hx : Accounts env p s (x.exec s).2) :
    Accounts env p s ((settle env c position x).exec s).2 := by
  rw [Run.exec_settle]
  generalize x.exec s = result at hx
  rcases result with ⟨fault | v, t⟩
  · simp only at hx ⊢
    split
    · exact hx
    · exact hx.trans (.of_eq rfl)
  · exact hx

/-- Aiming a command at a track for once leaves its account. -/
theorem accounts_aimed (c : Command) (values : Values) (track : Int64) (s : State) :
    Accounts env (.command c values, { s with target := track }) s
      ((Run.aimedAt track (c.run env values)).exec s).2 := by
  have hrun : Accounts env (.command c values, { s with target := track })
      { s with target := track } ((c.run env values).exec { s with target := track }).2 :=
    .command c values _
  rw [Run.exec_aimedAt]
  exact ⟨hrun.kept, hrun.emitted⟩

theorem accounts_called {name : String} {arguments : List (Arg Expr)} {scope : Option Binding}
    (h : Accounts env p s ((runNamed env name (operands env arguments) scope).exec s).2) :
    Accounts env p s
      ((runCall env name (argumentsText arguments) (operands env arguments) scope).exec s).2 := by
  rw [runCall, Run.exec_within]
  exact h

end Steps

/-- Accounting for what is appended as a property of tasks. -/
def accounting (env : Env) : TaskProperty env where
  holds p s result := Accounts env p s result.2
  done _ := .of_eq rfl
  failed _ := .of_eq rfl
  stored _ _ := .of_eq rfl
  bind := accounts_bind
  begun := .of_begins
  command := Accounts.command
  aimed := accounts_aimed
  settled := accounts_settle
  called := accounts_called

/-- A run of calls only appends actions of commands that it leads to. -/
theorem runCalls_accounts (env : Env) (calls : List Call) (s : State) :
    Accounts env (.evaluateAll (calls.map Call.expr) none, s) s
      ((runCalls env calls).exec s).2 :=
  (accounting env).runCalls calls s

end DawScript
