import DawScript.Proofs.Assignment
import DawScript.Proofs.Reads

/-!
# The order of arguments

A command evaluates its arguments in the order of its parameters, whatever the order in which they
are written (`inParameterOrder`), one after the other and up to the first fault. So the calls inside
them act in the order in which they are written where this is the order of the parameters
(`command_evaluates_in_parameter_order`), and keyword arguments can bring them into another one.
-/

set_option autoImplicit false

namespace DawScript

variable {α : Type}

/-! ## The order of parameters -/

section Order

variable {parameters : List String} {given others : List (String × α)} {p : String} {v : α}

/-- The parameters that something is given to stand in their order. -/
theorem names_inParameterOrder (parameters : List String) (given : List (String × α)) :
    ((inParameterOrder parameters given).map Prod.fst).Sublist parameters := by
  induction parameters with
  | nil => exact List.Sublist.slnil
  | cons p rest ih =>
    rw [inParameterOrder, List.filterMap_cons]
    cases given.lookup p with
    | none => exact ih.cons p
    | some v => exact ih.cons_cons p

/-- Nothing given gets lost or is evaluated twice. -/
theorem inParameterOrder_perm (hparameters : parameters.Nodup)
    (hgiven : (given.map Prod.fst).Nodup) (hnames : given.map Prod.fst ⊆ parameters) :
    (inParameterOrder parameters given).Perm given := by
  have hordered : (inParameterOrder parameters given).Nodup :=
    List.Nodup.of_map Prod.fst (hparameters.sublist (names_inParameterOrder parameters given))
  refine (List.perm_ext_iff_of_nodup hordered (hgiven.of_map Prod.fst)).2 ?_
  rintro ⟨p, v⟩
  rw [mem_inParameterOrder, lookup_eq_some_iff_mem hgiven]
  exact ⟨And.right, fun hmem => ⟨hnames (List.mem_map_of_mem hmem), hmem⟩⟩

/-- The order of what is given does not matter. -/
theorem inParameterOrder_of_perm (hperm : given.Perm others)
    (h : (given.map Prod.fst).Nodup) :
    inParameterOrder parameters given = inParameterOrder parameters others :=
  List.filterMap_congr fun p _ => by rw [lookup_of_perm hperm h]

/-- What is given in the order of the parameters stays as it is. -/
theorem inParameterOrder_of_sublist (hparameters : parameters.Nodup)
    (h : (given.map Prod.fst).Sublist parameters) : inParameterOrder parameters given = given := by
  induction parameters generalizing given with
  | nil =>
    rw [List.map_eq_nil_iff.1 (List.sublist_nil.1 h)]
    rfl
  | cons p rest ih =>
    obtain ⟨hp, hrest⟩ := List.nodup_cons.1 hparameters
    rw [inParameterOrder, List.filterMap_cons]
    generalize hnames : given.map Prod.fst = names at h
    cases h with
    | cons _ h =>
      -- nothing is given to the first parameter
      rw [← hnames] at h
      have hnone : given.lookup p = none :=
        lookup_eq_none_iff_notMem.2 fun hmem => hp (h.subset hmem)
      rw [hnone]
      exact ih hrest h
    | cons_cons _ h =>
      obtain ⟨⟨q, v⟩, more, rfl, rfl, rfl⟩ := List.map_eq_cons_iff.1 hnames
      rw [List.lookup_cons_self]
      refine congrArg _ ((List.filterMap_congr fun r hr => ?_).trans (ih hrest h))
      have hne : (r == q) = false := beq_false_of_ne fun heq => hp (heq ▸ hr)
      rw [List.lookup_cons, hne]

end Order

theorem Command.parameters_nodup (c : Command) : c.parameters.Nodup := by
  cases c with
  | set p => cases p <;> decide
  | _ => decide

/-! ## The values of arguments -/

section Evaluate

variable {env : Env} {scope : Option Binding}

theorem commandValues_of_assign {c : Command} {arguments : List (Arg Expr)}
    {given : List (String × Expr)} (h : assign c.parameters arguments = .ok given) :
    commandValues c (meanings env arguments) scope =
      present ((inParameterOrder c.parameters given).map Prod.fst) <$>
        evaluateItems env ((inParameterOrder c.parameters given).map Prod.snd) scope := by
  rw [commandValues, meanings_eq_map, assign_map, h]
  exact (Run.lift_ok_bind _ _).trans (argumentValues_eq env given scope c.parameters)

/-- The expressions in which calls stand. -/
def acting (es : List Expr) : List Expr := es.filter fun e => !e.calls.isEmpty

/-- Where all expressions have values, those without calls might as well not be evaluated. -/
theorem exec_acting {es : List Expr} {values : List Value} {s t : State}
    (h : (evaluateItems env es scope).exec s = (.ok values, t)) :
    ∃ others, (evaluateItems env (acting es) scope).exec s = (.ok others, t) := by
  induction es generalizing s values with
  | nil => exact ⟨values, h⟩
  | cons e rest ih =>
    rw [evaluateItems, Run.exec_bind] at h
    split at h
    · next v u he =>
      rw [Run.exec_bind] at h
      split at h
      · next more w hrest =>
        cases h
        obtain ⟨others, hothers⟩ := ih hrest
        by_cases hcalls : e.calls = []
        · -- the expression only reads, so the others begin in the same state
          have hreads : (evaluate env e scope).Reads := evaluate_reads hcalls
          have hsame := hreads s
          rw [he] at hsame
          cases hsame
          refine ⟨others, ?_⟩
          rw [acting, List.filter_cons_of_neg (by simp [hcalls])]
          exact hothers
        · refine ⟨v :: others, ?_⟩
          rw [acting, List.filter_cons_of_pos (by simp [hcalls]), evaluateItems,
            Run.exec_bind_ok he]
          exact Run.exec_bind_ok hothers _
      · cases h
    · cases h

/-- Whether expressions act in one order or in another one without a change to the order of calls,
the state is the same if all have values. -/
theorem state_eq_of_acting {es ds : List Expr} (h : acting es = acting ds)
    {values others : List Value} {s t u : State}
    (hes : (evaluateItems env es scope).exec s = (.ok values, t))
    (hds : (evaluateItems env ds scope).exec s = (.ok others, u)) : t = u := by
  obtain ⟨_, hfirst⟩ := exec_acting hes
  obtain ⟨_, hsecond⟩ := exec_acting hds
  rw [h, hsecond] at hfirst
  cases hfirst
  rfl

end Evaluate

/-! ## Commands -/

/-- A command evaluates its arguments one after the other in the order of its parameters and up to
the first fault, each of them once, and runs on their values: called for itself and for the item of
a combinator. So the order in which they are written does not matter for what they do. The calls
inside them act as they are written if what is given stands in the order of the parameters; if only
the arguments with calls do so, both orders leave the same state where all arguments have values. -/
theorem command_evaluates_in_parameter_order (env : Env) {c : Command} {name : String}
    {arguments : List (Arg Expr)} {given : List (String × Expr)}
    (hcall : CommandCall c name arguments) (hassign : assign c.parameters arguments = .ok given) :
    let names := (inParameterOrder c.parameters given).map Prod.fst
    let sources := (inParameterOrder c.parameters given).map Prod.snd
    let written := arguments.map Arg.value
    sources.Perm written ∧ names.Sublist c.parameters ∧
    (∀ scope, evaluate env (.call name arguments) scope = tryCatch (do
        let values ← evaluateItems env sources scope
        c.run env (present names values)
        return .null) fun fault => throw (fault.within name (argumentsText arguments))) ∧
    (∀ binding, runCommandOnItem env c (meanings env arguments) binding = do
        let values ← evaluateItems env sources (some binding)
        c.runOnItem env (present names values) binding.item
        return .null) ∧
    (∀ others given', assign c.parameters others = .ok given' → given'.Perm given → ∀ scope,
      commandValues c (meanings env others) scope =
        commandValues c (meanings env arguments) scope) ∧
    ((given.map Prod.fst).Sublist c.parameters → sources = written) ∧
    (acting sources = acting written → ∀ scope s values t others u,
      (evaluateItems env sources scope).exec s = (.ok values, t) →
      (evaluateItems env written scope).exec s = (.ok others, u) → t = u) := by
  have hwritten := map_snd_of_assign hassign
  refine ⟨?_, names_inParameterOrder _ _, fun scope => ?_, fun binding => ?_,
    fun others given' hothers hperm scope => ?_, fun hsublist => ?_,
    fun hacting scope s values t others u => state_eq_of_acting hacting⟩
  · rw [← hwritten]
    exact (inParameterOrder_perm c.parameters_nodup (nodup_of_assign hassign)
      (names_of_assign hassign)).map Prod.snd
  · rw [evaluate, runCall,
      runNamed_of_command env arguments scope hcall.not_combinator hcall.command, runCommand,
      commandValues_of_assign hassign]
    simp only [bind_map_left]
  · simp only [runCommandOnItem, commandValues_of_assign hassign, bind_map_left]
  · have hsame : inParameterOrder c.parameters given' = inParameterOrder c.parameters given :=
      inParameterOrder_of_perm hperm (nodup_of_assign hothers)
    rw [commandValues_of_assign hothers, commandValues_of_assign hassign, hsame]
  · rw [inParameterOrder_of_sublist c.parameters_nodup hsublist, hwritten]

/-- A call that switches a property of the bound track on. -/
def switchOn (name : String) : Expr := .call name [⟨none, .literal (.bool true)⟩]

/-- The arguments of a call for notes: as they are written, the track is switched to solo and then
muted. -/
def soloThenMute : List (Arg Expr) :=
  [⟨some "note", switchOn "set_solo"⟩, ⟨some "notes", switchOn "set_mute"⟩]

/-- The list of notes comes before the single note, so the track is muted first. -/
theorem evaluate_soloThenMute :
    evaluate ⟨none, {}⟩ (.call "add_midi" soloThenMute) none = tryCatch (do
        let values ← evaluateItems ⟨none, {}⟩ [switchOn "set_mute", switchOn "set_solo"] none
        Command.addMidi.run ⟨none, {}⟩ (present ["notes", "note"] values)
        return .null) fun fault =>
      throw (fault.within "add_midi" (argumentsText soloThenMute)) := by
  have hassign : assign Command.addMidi.parameters soloThenMute =
      .ok [("note", switchOn "set_solo"), ("notes", switchOn "set_mute")] := rfl
  have hcall : CommandCall .addMidi "add_midi" soloThenMute := ⟨rfl, rfl⟩
  obtain ⟨-, -, hevaluate, -⟩ := command_evaluates_in_parameter_order ⟨none, {}⟩ hcall hassign
  exact hevaluate none

/-- The actions are not in the order in which the calls are written. -/
theorem soloThenMute_out_of_order :
    let start : State := { State.fresh #[] with target := 0 }
    let kinds (s : State) : List ActionKind := s.actions.toList.map Action.kind
    kinds ((evaluate ⟨none, {}⟩ (.call "add_midi" soloThenMute) none).exec start).2 =
      [.setTrackMute, .setTrackSolo, .addMidi] ∧
    kinds ((evaluateItems ⟨none, {}⟩ (soloThenMute.map Arg.value) none).exec start).2 =
      [.setTrackSolo, .setTrackMute] :=
  ⟨rfl, rfl⟩

end DawScript
