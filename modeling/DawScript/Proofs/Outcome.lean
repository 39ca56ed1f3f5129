import DawScript.Proofs.Independence
import DawScript.Proofs.Strictness

/-!
# Outcomes of interpretations

A run of calls succeeds if each of them does, one after the other, and otherwise it stops at the
first that fails (`exec_runCalls_eq_ok_iff`, `exec_runCalls_eq_error_iff`). So the outcome of an
interpretation and the actions that it appends are read off its calls, whatever was emitted before
(`interpret_outcome`), and the interpretation of the first calls begins that of all of them
(`interpret_take_prefix`).
-/

set_option autoImplicit false

namespace DawScript

variable {env : Env}

/-- Calls that all succeed, one after the other, lead from a state to another. -/
inductive Env.Succeed (env : Env) : List Call → State → State → Prop where
  | nil (s : State) : env.Succeed [] s s
  | cons {c : Call} {rest : List Call} {s t u : State} {v : Value} :
      (c.run env).exec s = (.ok v, t) → env.Succeed rest t u → env.Succeed (c :: rest) s u

/-- Of some calls one fails, in the state to which those before it have led. -/
def Env.FailsFirst (env : Env) (calls : List Call) (s : State) (fault : Fault) (t : State) : Prop :=
  ∃ before c after u, calls = before ++ c :: after ∧ env.Succeed before s u ∧
    (c.run env).exec u = (.error fault, t)

/-- A run of calls succeeds exactly if every call does. -/
theorem exec_runCalls_eq_ok_iff {calls : List Call} {s t : State} :
    (runCalls env calls).exec s = (.ok (), t) ↔ env.Succeed calls s t := by
  induction calls generalizing s with
  | nil =>
    constructor
    · intro h
      cases h
      exact .nil _
    · intro h
      cases h
      rfl
  | cons c rest ih =>
    rw [runCalls]
    constructor
    · intro h
      rw [Run.exec_bind] at h
      cases hrun : (c.run env).exec s with
      | mk outcome u =>
        rw [hrun] at h
        cases outcome with
        | error fault => cases h
        | ok v => exact .cons hrun (ih.1 h)
    · rintro (_ | ⟨hrun, hrest⟩)
      rw [Run.exec_bind_ok hrun]
      exact ih.2 hrest

/-- A run of calls fails exactly as the first call does that fails. -/
theorem exec_runCalls_eq_error_iff {calls : List Call} {s t : State} {fault : Fault} :
    (runCalls env calls).exec s = (.error fault, t) ↔ env.FailsFirst calls s fault t := by
  induction calls generalizing s with
  | nil =>
    constructor
    · rintro ⟨⟩
    · rintro ⟨before, c, after, u, heq, -, -⟩
      exact absurd heq (List.append_ne_nil_of_right_ne_nil before (List.cons_ne_nil c after)).symm
  | cons c rest ih =>
    rw [runCalls]
    constructor
    · intro h
      rw [Run.exec_bind] at h
      cases hrun : (c.run env).exec s with
      | mk outcome u =>
        rw [hrun] at h
        cases outcome with
        | error cause =>
          cases h
          exact ⟨[], c, rest, s, rfl, .nil s, hrun⟩
        | ok v =>
          -- the first call succeeds, so the one that fails is among the others
          obtain ⟨before, d, after, w, rfl, hbefore, hfails⟩ := ih.1 h
          exact ⟨c :: before, d, after, w, rfl, .cons hrun hbefore, hfails⟩
    · rintro ⟨before, d, after, w, heq, hbefore, hfails⟩
      cases hbefore with
      | nil =>
        cases heq
        exact Run.exec_bind_error hfails _
      | cons hrun hrest =>
        cases heq
        rw [Run.exec_bind_ok hrun]
        exact ih.2 ⟨_, d, after, w, rfl, hrest, hfails⟩

theorem not_succeed_of_failsFirst {calls : List Call} {s t u : State} {fault : Fault}
    (h : env.FailsFirst calls s fault t) : ¬ env.Succeed calls s u := by
  intro hsucceed
  rw [← exec_runCalls_eq_ok_iff, exec_runCalls_eq_error_iff.2 h] at hsucceed
  cases hsucceed

/-- All calls of a list succeed, or one is the first to fail; its fault names a call. -/
theorem succeed_or_failsFirst (env : Env) (calls : List Call) (s : State) :
    (∃ t, env.Succeed calls s t) ∨ ∃ call arguments source t,
      env.FailsFirst calls s (.inCall call arguments source) t := by
  cases hrun : (runCalls env calls).exec s with
  | mk outcome t =>
    cases outcome with
    | ok _ => exact Or.inl ⟨t, exec_runCalls_eq_ok_iff.1 hrun⟩
    | error fault =>
      obtain ⟨call, arguments, source, rfl⟩ := isInCall_iff.1 (isInCall_of_runCalls env calls hrun)
      exact Or.inr ⟨call, arguments, source, t, exec_runCalls_eq_error_iff.1 hrun⟩

/-! ## Outcomes -/

section Interpretation

variable {calls : List Call} {actions : Array Action} {t : State}

theorem interpret_of_succeed (h : env.Succeed calls (env.initial actions) t) :
    interpret env calls actions =
      (if t.actions.size = actions.size then .error .noActions else .ok ⟨t.skipped, t.symbols⟩,
        t.actions) := by
  rw [interpret_eq, exec_runCalls_eq_ok_iff.2 h]
  simp only
  split <;> rfl

theorem interpret_of_failsFirst {fault : Fault}
    (h : env.FailsFirst calls (env.initial actions) fault t) :
    interpret env calls actions = (.error fault, t.actions) := by
  rw [interpret_eq, exec_runCalls_eq_error_iff.2 h]

end Interpretation

/-- A script without calls leaves the actions before it. -/
theorem interpretScript_of_unreadable {script : String}
    (h : Text.isBlankText script = true ∨ ∃ fault, Program.parse script = .error fault)
    (actions : Array Action) : (interpretScript env script actions).2 = actions := by
  unfold interpretScript callsOf
  by_cases hblank : Text.isBlankText script = true
  · rw [if_pos hblank]
  · obtain ⟨fault, hfault⟩ := h.resolve_left hblank
    rw [if_neg hblank, hfault]
    rfl

/-- An interpretation leaves the actions before it and appends its own, which are the same whatever
there was before, as is its outcome. It ends well if every call succeeds and something is appended,
for want of actions if every call succeeds and nothing is appended, and otherwise with the fault of
the first call that fails, which names a call. A script that is blank or cannot be read appends
nothing. -/
theorem interpret_outcome (env : Env) (calls : List Call) :
    ∃ outcome appended, ∀ actions,
      interpret env calls actions = (outcome, actions ++ appended) ∧
      ((∃ report, outcome = .ok report) ↔
        (∃ t, env.Succeed calls (env.initial actions) t) ∧ appended ≠ #[]) ∧
      (outcome = .error .noActions ↔
        (∃ t, env.Succeed calls (env.initial actions) t) ∧ appended = #[]) ∧
      ((¬ ∃ t, env.Succeed calls (env.initial actions) t) →
        ∃ call arguments source t, outcome = .error (.inCall call arguments source) ∧
          env.FailsFirst calls (env.initial actions) (.inCall call arguments source) t) ∧
      ∀ script, Text.isBlankText script = true ∨ (∃ fault, Program.parse script = .error fault) →
        (interpretScript env script actions).2 = actions := by
  obtain ⟨outcome, appended, hafter⟩ : ∃ outcome appended, ∀ actions,
      interpret env calls actions = (outcome, actions ++ appended) :=
    ⟨_, _, interpret_after env calls⟩
  refine ⟨outcome, appended, fun actions => ⟨hafter actions, ?_⟩⟩
  rcases succeed_or_failsFirst env calls (env.initial actions) with
    ⟨t, hsucceed⟩ | ⟨call, arguments, source, t, hfails⟩
  · -- whether something was appended decides between the two outcomes
    have hinterpret := interpret_of_succeed hsucceed
    rw [hafter actions, Prod.mk.injEq] at hinterpret
    obtain ⟨houtcome, hactions⟩ := hinterpret
    have hsize : t.actions.size = actions.size ↔ appended = #[] := by
      rw [← hactions, Array.size_append, Nat.add_eq_left, Array.size_eq_zero_iff]
    have hall : ∃ u, env.Succeed calls (env.initial actions) u := ⟨t, hsucceed⟩
    simp only [hall, true_and, not_true_eq_false, false_implies]
    refine ⟨?_, ?_, fun _ h => interpretScript_of_unreadable h actions⟩
    · rw [houtcome]
      by_cases hempty : appended = #[] <;> simp [hsize, hempty]
    · rw [houtcome]
      simp [hsize]
  · -- the fault names a call, so it is not the one of a run without actions
    have hinterpret := interpret_of_failsFirst hfails
    rw [hafter actions, Prod.mk.injEq] at hinterpret
    obtain ⟨rfl, hactions⟩ := hinterpret
    have hnone : ¬ ∃ u, env.Succeed calls (env.initial actions) u :=
      fun ⟨u, hu⟩ => not_succeed_of_failsFirst hfails hu
    refine ⟨?_, ?_, fun _ => ⟨call, arguments, source, t, rfl, hfails⟩,
      fun _ h => interpretScript_of_unreadable h actions⟩
    · exact iff_of_false nofun fun h => hnone h.1
    · exact iff_of_false nofun fun h => hnone h.1

/-! ## Beginnings of runs -/

theorem runCalls_append (env : Env) (first rest : List Call) :
    runCalls env (first ++ rest) = runCalls env first >>= fun _ => runCalls env rest := by
  induction first with
  | nil => rfl
  | cons c others ih =>
    rw [List.cons_append, runCalls, ih, runCalls, bind_assoc]

/-- The run of more calls goes on from where the run of the first ones has come to, and a run that
fails is not gone on with. -/
theorem final_append (env : Env) (first rest : List Call) (actions : Array Action) :
    (env.final first actions).Extends (env.final (first ++ rest) actions) ∧
      ∀ fault t, (runCalls env first).exec (env.initial actions) = (.error fault, t) →
        (runCalls env (first ++ rest)).exec (env.initial actions) = (.error fault, t) := by
  unfold Env.final
  rw [runCalls_append, Run.exec_bind]
  cases (runCalls env first).exec (env.initial actions) with
  | mk outcome t =>
    cases outcome with
    | error fault => exact ⟨.refl t, fun _ _ h => h⟩
    | ok _ => exact ⟨runCalls_appends env rest t, nofun⟩

/-- The report of an interpretation is about the state that its run leaves. -/
theorem skipped_of_interpret {env : Env} {calls : List Call} {actions : Array Action}
    {report : Report} (h : (interpret env calls actions).1 = .ok report) :
    report.skipped = (env.final calls actions).skipped := by
  rw [interpret_eq] at h
  unfold Env.final
  cases hrun : (runCalls env calls).exec (env.initial actions) with
  | mk outcome t =>
    rw [hrun] at h
    cases outcome with
    | error fault => cases h
    | ok _ =>
      simp only at h
      split at h
      · cases h
      · cases h
        rfl

/-- The interpretation of the first calls begins that of all of them: it appends the first of their
actions and passes over the first of their items, as also the reports say. If it fails in a call,
the interpretation of all calls fails with the same fault and appends the same. -/
theorem interpret_take_prefix (env : Env) (calls : List Call) (actions : Array Action) (k : Nat) :
    (∃ first all, (interpret env (calls.take k) actions).2 = actions ++ first ∧
      (interpret env calls actions).2 = actions ++ all ∧ first.toList <+: all.toList) ∧
    (env.final (calls.take k) actions).skipped.toList <+:
      (env.final calls actions).skipped.toList ∧
    (∀ early late, (interpret env (calls.take k) actions).1 = .ok early →
      (interpret env calls actions).1 = .ok late →
      early.skipped.toList <+: late.skipped.toList) ∧
    ∀ call arguments source,
      (interpret env (calls.take k) actions).1 = .error (.inCall call arguments source) →
        interpret env calls actions = interpret env (calls.take k) actions := by
  have hfinal := final_append env (calls.take k) (calls.drop k) actions
  rw [List.take_append_drop] at hfinal
  obtain ⟨hextends, hfails⟩ := hfinal
  refine ⟨?_, hextends.skipped, ?_, ?_⟩
  · have hactions := hextends.actions
    rw [← interpret_actions, ← interpret_actions, interpret_after env (calls.take k) actions,
      interpret_after env calls actions, Array.toList_append, Array.toList_append,
      List.prefix_append_right_inj] at hactions
    exact ⟨_, _, congrArg Prod.snd (interpret_after env (calls.take k) actions),
      congrArg Prod.snd (interpret_after env calls actions), hactions⟩
  · intro early late hearly hlate
    rw [skipped_of_interpret hearly, skipped_of_interpret hlate]
    exact hextends.skipped
  · intro call arguments source h
    rcases succeed_or_failsFirst env (calls.take k) (env.initial actions) with
      ⟨t, hsucceed⟩ | ⟨_, _, _, t, hfirst⟩
    · -- calls that all succeed do not end in a fault of a call
      rw [interpret_of_succeed hsucceed] at h
      simp only at h
      split at h <;> cases h
    · have hwhole := hfails _ _ (exec_runCalls_eq_error_iff.2 hfirst)
      rw [interpret_of_failsFirst hfirst,
        interpret_of_failsFirst (exec_runCalls_eq_error_iff.1 hwhole)]

end DawScript
