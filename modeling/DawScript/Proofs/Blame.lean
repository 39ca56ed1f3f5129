import DawScript.Proofs.NestedCalls
import DawScript.Proofs.TaskInduction

/-!
# The calls that faults name

A fault that a call ends with names the innermost call in which it arose: the call itself or one
that stands in it and was run on the way, and there the fault was still bare
(`call_fault_names_innermost`). On its way out it names no second call, and nothing more happens to
the state.
-/

set_option autoImplicit false

namespace DawScript

variable {α β : Type} {env : Env}

theorem Fault.isBare_iff {fault : Fault} :
    fault.isBare = true ↔ fault.isInCall = false ∧
      (∀ cause position, fault ≠ .malformed cause position) ∧ fault ≠ .noActions := by
  cases fault <;> simp [Fault.isBare, Fault.isInCall]

/-- A fault names a call that a task leads to: the run of this call ended with the bare fault in
it and left the state. -/
def Blames (env : Env) (p : Task × State) (fault : Fault) (t : State) : Prop :=
  ∃ (d : Call) (scope : Option Binding) (u : State) (source : Fault),
    Reaches env p (.evaluate d.expr scope, u) ∧
    fault = .inCall d.name (argumentsText d.arguments) source ∧ source.isBare = true ∧
    (runNamed env d.name (operands env d.arguments) scope).exec u = (.error source, t)

/-- The result of a part of a task is a value, a bare fault, or one that names a call which the task
leads to. -/
def BlamesInnermost (env : Env) (p : Task × State) (result : Except Fault α × State) : Prop :=
  ∀ fault, result.1 = .error fault → fault.isBare = true ∨ Blames env p fault result.2

section Steps

variable {p q : Task × State} {s t : State}

theorem blames_of_begins {fault : Fault} (hbegin : Begins env p q) (h : Blames env q fault t) :
    Blames env p fault t := by
  obtain ⟨d, scope, u, source, hreach, hrest⟩ := h
  exact ⟨d, scope, u, source, .head hbegin hreach, hrest⟩

theorem blamesInnermost_ok (a : α) : BlamesInnermost env p (.ok a, s) := nofun

theorem blamesInnermost_of_bare {result : Except Fault α × State} (h : FailsBare result.1) :
    BlamesInnermost env p result := fun fault hfault => Or.inl (h fault hfault)

theorem blamesInnermost_bind {x : Run α} {f : α → Run β} (hx : BlamesInnermost env p (x.exec s))
    (hf : ∀ a t, x.exec s = (.ok a, t) → BlamesInnermost env p ((f a).exec t)) :
    BlamesInnermost env p ((x >>= f).exec s) := by
  rw [Run.exec_bind]
  cases hexec : x.exec s with
  | mk outcome t =>
    rw [hexec] at hx
    cases outcome with
    | ok a => exact hf a t hexec
    | error fault =>
      rintro _ ⟨⟩
      exact hx fault rfl

theorem blamesInnermost_settle {x : Run Value} (c : Combinator) (position : Nat)
    (hx : BlamesInnermost env p (x.exec s)) :
    BlamesInnermost env p ((settle env c position x).exec s) := by
  rw [Run.exec_settle]
  generalize x.exec s = result at hx
  rcases result with ⟨fault | v, t⟩
  · simp only
    split
    · -- a strict run ends with the fault of the item
      rintro _ ⟨⟩
      exact hx fault rfl
    · exact blamesInnermost_ok none
  · exact blamesInnermost_ok (some v)

/-- A bare fault gets the name of the call in which it arose, and any other keeps the name that it
has. -/
theorem blames_called {name : String} {arguments : List (Arg Expr)} {scope : Option Binding}
    {fault : Fault} (h : BlamesInnermost env (.evaluate (.call name arguments) scope, s)
      ((runNamed env name (operands env arguments) scope).exec s))
    (hcall : (runCall env name (argumentsText arguments) (operands env arguments) scope).exec s =
      (.error fault, t)) :
    Blames env (.evaluate (.call name arguments) scope, s) fault t := by
  rw [runCall, Run.exec_within] at hcall
  cases hexec : (runNamed env name (operands env arguments) scope).exec s with
  | mk outcome u =>
    rw [hexec] at h hcall
    cases outcome with
    | ok v => cases hcall
    | error cause =>
      cases hcall
      rcases h cause rfl with hbare | hblames
      · exact ⟨⟨name, arguments⟩, scope, s, cause, .refl, Fault.within_of_isBare hbare _ _, hbare,
          hexec⟩
      · obtain ⟨d, scope', v, source, hreach, rfl, hrest⟩ := hblames
        exact ⟨d, scope', v, source, hreach, rfl, hrest⟩

end Steps

/-- Naming the innermost call as a property of tasks. -/
def blame (env : Env) : TaskProperty env where
  holds p _ result := BlamesInnermost env p result
  done a := blamesInnermost_ok a
  failed h := blamesInnermost_of_bare (failsBare_error h)
  stored _ _ := blamesInnermost_ok ()
  bind := blamesInnermost_bind
  begun hbegin h fault hfault := (h fault hfault).imp_right (blames_of_begins hbegin)
  command c values s := blamesInnermost_of_bare (c.failsBare_run env values s)
  aimed c values track s :=
    blamesInnermost_of_bare (c.failsBare_run env values { s with target := track })
  settled := blamesInnermost_settle
  called h _ hfault := Or.inr (blames_called h (Prod.ext hfault rfl))

/-- A fault that a call ends with names one call: the call itself, or one that stands in its
arguments, was run on the way and ended with this very fault. The run of the call named ended with
the fault inside, which names no call yet and is neither one of a text nor the one of a run without
actions; and the state is as that run left it. -/
theorem call_fault_names_innermost (env : Env) (c : Call) (scope : Option Binding) {s t : State}
    {fault : Fault}
    (h : (runCall env c.name (argumentsText c.arguments) (operands env c.arguments) scope).exec s =
      (.error fault, t)) :
    ∃ (d : Call) (scope' : Option Binding) (u : State) (source : Fault),
      fault = .inCall d.name (argumentsText d.arguments) source ∧
      source.isInCall = false ∧ (∀ cause position, source ≠ .malformed cause position) ∧
      source ≠ .noActions ∧ d ∈ c.expr.calls ∧
      (runNamed env d.name (operands env d.arguments) scope').exec u = (.error source, t) ∧
      (d = c ∧ scope' = scope ∧ u = s ∨
        d ∈ Expr.argumentCalls c.arguments ∧
        Relation.TransGen (Begins env) (.evaluate c.expr scope, s) (.evaluate d.expr scope', u) ∧
        (runCall env d.name (argumentsText d.arguments) (operands env d.arguments) scope').exec u =
          (.error fault, t)) := by
  have hnamed : BlamesInnermost env (.evaluate c.expr scope, s)
      ((runNamed env c.name (operands env c.arguments) scope).exec s) :=
    (blame env).runNamed s fun a _ =>
      ⟨(blame env).evaluate a.value, fun b _ => (blame env).evaluate b.value⟩
  obtain ⟨d, scope', u, source, hreach, rfl, hbare, hexec⟩ := blames_called hnamed h
  obtain ⟨hcall, htext, hactions⟩ := Fault.isBare_iff.1 hbare
  have hself : d ∈ d.expr.calls := List.mem_cons_self
  refine ⟨d, scope', u, source, rfl, hcall, htext, hactions, hreach.calls_subset hself, hexec, ?_⟩
  rcases Relation.ReflTransGen.cases_head hreach with heq | ⟨q, hbegin, hrest⟩
  · -- no task was begun on the way, so the call named is the one that was run
    obtain ⟨name, arguments⟩ := c
    cases heq
    exact Or.inl ⟨rfl, rfl, rfl⟩
  · have hinner := hbegin.calls_subset_arguments (Reaches.calls_subset hrest hself)
    refine Or.inr ⟨hinner, .head' hbegin hrest, ?_⟩
    rw [runCall, Run.exec_within, hexec, ← Fault.within_of_isBare hbare]
    rfl

/-- A fold over the items of a filter whose collection is no list. -/
def foldOfFilter : Call :=
  ⟨"reduce", [⟨none, .function "add" []⟩,
    ⟨none, .call "filter" [⟨none, .literal (.bool true)⟩, ⟨some "predicate", .literal .null⟩]⟩]⟩

theorem call_fault_of_foldOfFilter :
    (runCall ⟨none, {}⟩ foldOfFilter.name (argumentsText foldOfFilter.arguments)
        (operands ⟨none, {}⟩ foldOfFilter.arguments) none).exec (State.fresh #[]) =
      (.error (.inCall "filter" "true, predicate=null" (.notASequence .bool)),
        State.fresh #[]) ∧
    ∃ d ∈ foldOfFilter.expr.calls, d.name = "filter" ∧
      argumentsText d.arguments = "true, predicate=null" := by
  have hrun : (runCall ⟨none, {}⟩ foldOfFilter.name (argumentsText foldOfFilter.arguments)
      (operands ⟨none, {}⟩ foldOfFilter.arguments) none).exec (State.fresh #[]) =
    (.error (.inCall "filter" "true, predicate=null" (.notASequence .bool)),
      State.fresh #[]) := rfl
  obtain ⟨d, -, -, source, hfault, -, -, -, hcalls, -⟩ :=
    call_fault_names_innermost ⟨none, {}⟩ foldOfFilter none hrun
  rw [Fault.inCall.injEq] at hfault
  exact ⟨hrun, d, hcalls, hfault.1.symm, hfault.2.1.symm⟩

end DawScript
