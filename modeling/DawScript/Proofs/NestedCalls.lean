import DawScript.Proofs.Task

/-!
# Calls inside expressions

The calls that stand in an expression: in its operands and items, in the arguments of calls, in
callbacks and in the arguments of function references (`Expr.calls`). A run only ever executes
calls that stand in what it was begun with (`Reaches.calls_subset`); where no call stands in the
arguments of another, the commands that it runs are those of the calls (`command_of_reaches_plain`).
-/

set_option autoImplicit false

namespace DawScript

namespace Expr

mutual

/-- The calls that stand in an expression, each before those inside it. -/
def calls : Expr → List Call
  | .literal _ => []
  | .list items => itemCalls items
  | .map entries => entryCalls entries
  | .property _ _ => []
  | .binary _ left right => calls left ++ calls right
  | .unary _ operand => calls operand
  | .method target _ arguments => calls target ++ itemCalls arguments
  | .call name arguments => ⟨name, arguments⟩ :: argumentCalls arguments
  | .function _ arguments => argumentCalls arguments

/-- The calls that stand in expressions. -/
def itemCalls : List Expr → List Call
  | [] => []
  | item :: rest => calls item ++ itemCalls rest

/-- The calls that stand in the entries of a map. -/
def entryCalls : List (String × Expr) → List Call
  | [] => []
  | (_, value) :: rest => calls value ++ entryCalls rest

/-- The calls that stand in arguments. -/
def argumentCalls : List (Arg Expr) → List Call
  | [] => []
  | ⟨_, value⟩ :: rest => calls value ++ argumentCalls rest

end

theorem itemCalls_eq (items : List Expr) : itemCalls items = items.flatMap calls := by
  induction items with
  | nil => simp [itemCalls]
  | cons e rest ih => simp [itemCalls, ih]

theorem entryCalls_eq (entries : List (String × Expr)) :
    entryCalls entries = (entries.map Prod.snd).flatMap calls := by
  induction entries with
  | nil => simp [entryCalls]
  | cons entry rest ih => simp [entryCalls, ih]

theorem argumentCalls_eq (arguments : List (Arg Expr)) :
    argumentCalls arguments = arguments.flatMap fun a => a.value.calls := by
  induction arguments with
  | nil => simp [argumentCalls]
  | cons a rest ih => simp [argumentCalls, ih]

/-- What stands in an argument stands in the arguments. -/
theorem calls_subset_argumentCalls {arguments : List (Arg Expr)} {e : Expr}
    (h : ∃ a ∈ arguments, a.value = e) : e.calls ⊆ argumentCalls arguments := by
  obtain ⟨a, ha, rfl⟩ := h
  intro d hd
  rw [argumentCalls_eq]
  exact List.mem_flatMap.2 ⟨a, ha, hd⟩

/-- Where no call stands in the arguments, none stands in what is given to a parameter. -/
theorem calls_of_lookup {arguments : List (Arg Expr)} (h : argumentCalls arguments = [])
    {parameters : List String} {given : List (String × Expr)}
    (hassign : assign parameters arguments = .ok given) (p : String) (e : Expr)
    (he : given.lookup p = some e) : e.calls = [] := by
  have hsubset := calls_subset_argumentCalls (mem_of_assign_lookup hassign he)
  rw [h] at hsubset
  exact List.subset_nil.1 hsubset

/-- What an expression other than a call evaluates first stands in it. -/
theorem parts_calls_subset (e : Expr) : e.parts.flatMap calls ⊆ e.calls := by
  cases e with
  | list items => simp [parts, calls, itemCalls_eq]
  | map entries => simp [parts, calls, entryCalls_eq]
  | binary op left right => simp [parts, calls]
  | unary op operand => simp [parts, calls]
  | method target name arguments => simp [parts, calls, itemCalls_eq]
  | _ => simp [parts]

end Expr

/-- The calls that stand in the expressions of a task. -/
def Task.calls : Task → List Call
  | .evaluate e _ => e.calls
  | .evaluateAll es _ => es.flatMap Expr.calls
  | .visit _ _ function _ _ => function.calls
  | .command _ _ => []

/-- What is given to a command stands in the arguments. -/
theorem Command.given_calls_subset {c : Command} {arguments : List (Arg Expr)}
    {given : List (String × Expr)} (h : assign c.parameters arguments = .ok given) :
    (c.given given).flatMap Expr.calls ⊆ Expr.argumentCalls arguments := by
  intro d hd
  obtain ⟨e, he, hde⟩ := List.mem_flatMap.1 hd
  obtain ⟨p, -, hp⟩ := List.mem_filterMap.1 he
  exact Expr.calls_subset_argumentCalls (mem_of_assign_lookup h hp) hde

section Begins

variable {env : Env} {p q : Task × State}

theorem CombinatorCall.calls_subset {c : Combinator} {name parameter : String}
    {arguments : List (Arg Expr)} {given : List (String × Expr)} {e : Expr}
    (h : CombinatorCall c name arguments given) (he : given.lookup parameter = some e) :
    e.calls ⊆ Expr.argumentCalls arguments :=
  Expr.calls_subset_argumentCalls (mem_of_assign_lookup h.assigned he)

/-- A call only begins tasks whose calls stand in its arguments. -/
theorem Begins.calls_subset_arguments {name : String} {arguments : List (Arg Expr)}
    {scope : Option Binding} {s : State}
    (h : Begins env (.evaluate (.call name arguments) scope, s) q) :
    q.1.calls ⊆ Expr.argumentCalls arguments := by
  cases h with
  | parts => exact List.nil_subset _
  | arguments c _ _ given _ _ _ hassign => exact Command.given_calls_subset hassign
  | command => exact List.nil_subset _
  | visitSource c _ _ function source f _ _ hvisit _ =>
    obtain ⟨given, parameter, hcall, -, -, hsource⟩ := hvisit.call
    exact hcall.calls_subset hsource
  | visit c _ _ function source f items itemName _ _ t hvisit _ =>
    obtain ⟨given, parameter, hcall, -, hfunction, -⟩ := hvisit.call
    exact hcall.calls_subset hfunction
  | reduceSource _ _ given function source r _ _ hcall _ _ hsource _ =>
    exact hcall.calls_subset hsource
  | reduceInitial _ _ given function source initial r items _ _ t hcall _ _ _ _ hinitial =>
    exact hcall.calls_subset hinitial
  | storeKeyword _ _ key source _ _ _ hkeyword =>
    exact Expr.calls_subset_argumentCalls (mem_of_storeKeyword? hkeyword)
  | storeName _ _ given nameSource _ _ hcall _ hname _ => exact hcall.calls_subset hname
  | storeValue _ _ given nameSource source key _ _ t hcall _ _ _ hvalue =>
    exact hcall.calls_subset hvalue
  | trackIndex c _ _ given source _ _ _ hcall hindex => exact hcall.calls_subset hindex

/-- A task only begins tasks whose calls stand in it. -/
theorem Begins.calls_subset (h : Begins env p q) : q.1.calls ⊆ p.1.calls := by
  obtain ⟨task, s⟩ := p
  cases task with
  | evaluate e scope =>
    cases e with
    | call name arguments =>
      intro d hd
      exact List.mem_cons_of_mem _ (h.calls_subset_arguments hd)
    | _ =>
      cases h
      exact Expr.parts_calls_subset _
  | evaluateAll es scope =>
    cases h with
    | first e es => exact List.subset_append_left _ _
    | next e es => exact List.subset_append_right _ _
  | visit c name function position items =>
    cases h with
    | item => exact List.Subset.refl _
    | itemArguments _ _ inner command arguments given _ item rest _ _ hassign =>
      exact Command.given_calls_subset hassign
    | itemCommand => exact List.nil_subset _
    | itemTrack => exact List.nil_subset _
    | nextItem => exact List.Subset.refl _
  | command c values => cases h

/-- A run only executes calls that stand in what it was begun with. -/
theorem Reaches.calls_subset (h : Reaches env p q) : q.1.calls ⊆ p.1.calls := by
  -- by induction on the chain of tasks
  induction h with
  | refl => exact List.Subset.refl _
  | tail _ hbegin ih => exact List.Subset.trans hbegin.calls_subset ih

end Begins

/-! ## Calls without nested ones -/

/-- A task that evaluates expressions in which no call stands. -/
def Task.IsReading : Task → Prop
  | .evaluate e _ => e.calls = []
  | .evaluateAll es _ => es.flatMap Expr.calls = []
  | _ => False

/-- A call of a command in whose arguments no call stands. -/
def Call.IsPlain (d : Call) : Prop :=
  (∃ c, CommandCall c d.name d.arguments) ∧ Expr.argumentCalls d.arguments = []

section Plain

variable {env : Env} {p q : Task × State}

theorem Task.IsReading.of_begins (h : p.1.IsReading) (hbegin : Begins env p q) :
    q.1.IsReading := by
  have hcalls := hbegin.calls_subset
  obtain ⟨task, s⟩ := p
  cases task with
  | evaluate e scope =>
    rw [Task.IsReading] at h
    simp only [Task.calls, h, List.subset_nil] at hcalls
    cases e with
    | call name arguments =>
      rw [Expr.calls] at h
      cases h
    | _ =>
      cases hbegin
      exact hcalls
  | evaluateAll es scope =>
    rw [Task.IsReading] at h
    simp only [Task.calls, h, List.subset_nil] at hcalls
    cases hbegin with
    | first => exact hcalls
    | next => exact hcalls
  | visit => exact h.elim
  | command => exact h.elim

/-- Where no call stands, no command is run. -/
theorem Task.IsReading.of_reaches (h : p.1.IsReading) (hreach : Reaches env p q) :
    q.1.IsReading := by
  induction hreach with
  | refl => exact h
  | tail _ hbegin ih => exact ih.of_begins hbegin

variable {c : Command} {values : Values} {s t : State}

/-- The only command that a plain call leads to is its own, on the values of its arguments. -/
theorem Call.IsPlain.command_of_reaches {d : Call} {scope : Option Binding} (h : d.IsPlain)
    (hreach : Reaches env (.evaluate d.expr scope, s) (.command c values, t)) :
    CommandCall c d.name d.arguments ∧
      (commandValues c (meanings env d.arguments) scope).exec s = (.ok values, t) := by
  obtain ⟨⟨own, hown⟩, hnone⟩ := h
  rcases Relation.ReflTransGen.cases_head hreach with heq | ⟨⟨task, u⟩, hbegin, hrest⟩
  · cases heq
  · have hcalls := hbegin.calls_subset_arguments
    rw [hnone, List.subset_nil] at hcalls
    cases task with
    | evaluate e inner =>
      have hreading : Task.IsReading (.evaluate e inner) := hcalls
      exact (hreading.of_reaches hrest).elim
    | evaluateAll es inner =>
      have hreading : Task.IsReading (.evaluateAll es inner) := hcalls
      exact (hreading.of_reaches hrest).elim
    | visit =>
      cases hbegin with
      | visit _ _ _ _ _ _ _ _ _ _ _ hvisit _ =>
        obtain ⟨given, parameter, hcombinator, -⟩ := hvisit.call
        have hnot := hown.not_combinator
        rw [hcombinator.combinator] at hnot
        cases hnot
    | command =>
      cases hbegin with
      | command _ _ _ _ _ _ _ hcall hvalues =>
        rcases Relation.ReflTransGen.cases_head hrest with heq | ⟨_, hnothing, -⟩
        · cases heq
          exact ⟨hcall, hvalues⟩
        · cases hnothing

/-- The commands that plain calls lead to are those of the calls, each run where the calls before
it have come to. -/
theorem command_of_reaches_plain {calls : List Call} (h : ∀ d ∈ calls, d.IsPlain)
    (hreach : Reaches env (.evaluateAll (calls.map Call.expr) none, s) (.command c values, t)) :
    ∃ before d rest u, calls = before ++ d :: rest ∧
      (runCalls env before).exec s = (.ok (), u) ∧ CommandCall c d.name d.arguments ∧
      (commandValues c (meanings env d.arguments) none).exec u = (.ok values, t) := by
  induction calls generalizing s with
  | nil =>
    rcases Relation.ReflTransGen.cases_head hreach with heq | ⟨_, hnothing, -⟩
    · cases heq
    · cases hnothing
  | cons d rest ih =>
    rcases Relation.ReflTransGen.cases_head hreach with heq | ⟨q, hbegin, hrest⟩
    · cases heq
    · cases hbegin with
      | first =>
        obtain ⟨hcall, hvalues⟩ := (h d List.mem_cons_self).command_of_reaches hrest
        exact ⟨[], d, rest, s, rfl, rfl, hcall, hvalues⟩
      | next _ _ _ _ u v hexec =>
        obtain ⟨before, d', rest', w, rfl, hbefore, hcall, hvalues⟩ :=
          ih (fun d' hd' => h d' (List.mem_cons_of_mem _ hd')) hrest
        refine ⟨d :: before, d', rest', w, rfl, ?_, hcall, hvalues⟩
        -- a call of a script is evaluated as any other call
        have hrun : (d.run env).exec s = (.ok v, u) := by
          rwa [Call.expr, evaluate] at hexec
        rw [runCalls, Run.exec_bind_ok hrun, hbefore]

end Plain

end DawScript
