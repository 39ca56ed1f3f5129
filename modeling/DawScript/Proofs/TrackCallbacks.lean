import Mathlib.Data.List.Forall2
import DawScript.Proofs.Visits

/-!
# Callbacks on tracks

A command that visits track records does the same as addressing each of the tracks by its number
and then running the command: it appends the same actions, moves the counter in the same way, and
passes over an item exactly where the two calls fail (`forEach_track_addresses_each`). Only the
track that is bound afterwards differs, since a visit binds the one from before again.
-/

set_option autoImplicit false

namespace DawScript

/-! ## Calls with literal arguments -/

namespace Expr

mutual

/-- The value of a literal, which may also be a list or a map of literals. -/
def literalValue? : Expr → Option Value
  | .literal v => some v
  | .list items => (literalItems? items).map Value.list
  | .map entries => (literalEntries? entries).map fun fields => .map (Fields.ofList fields)
  | _ => none

/-- The values of literals. -/
def literalItems? : List Expr → Option (List Value)
  | [] => some []
  | item :: rest => do
    let v ← item.literalValue?
    let others ← literalItems? rest
    return v :: others

/-- The values of the entries of a map of literals. -/
def literalEntries? : List (String × Expr) → Option (List (String × Value))
  | [] => some []
  | (name, e) :: rest => do
    let v ← e.literalValue?
    let others ← literalEntries? rest
    return (name, v) :: others

end

end Expr

/-- The values of the literals that are given to parameters; null counts as no value. -/
def literalValues (given : List (String × Expr)) (parameters : List String) : Values :=
  parameters.filterMap fun p =>
    (((given.lookup p).bind Expr.literalValue?).filter fun v => !v.isNull).map fun v => (p, v)

/-- The values that a command has for literal arguments. -/
def Command.literalValues (c : Command) (arguments : List (Arg Expr)) : Except Fault Values :=
  (assign c.parameters arguments).map fun given => DawScript.literalValues given c.parameters

/-- Runs a command on the values of literal arguments. -/
def Command.runWith (env : Env) (c : Command) (arguments : List (Arg Expr)) : Run Unit :=
  liftM (c.literalValues arguments) >>= c.run env

/-- All arguments are literals. -/
def AllLiteral (arguments : List (Arg Expr)) : Prop :=
  ∀ a ∈ arguments, ∃ v, a.value.literalValue? = some v

theorem allLiteral_singleton {a : Arg Expr} {v : Value} (h : a.value.literalValue? = some v) :
    AllLiteral [a] := by
  intro b hb
  cases List.mem_singleton.1 hb
  exact ⟨v, h⟩

section Literals

variable (env : Env) (scope : Option Binding)

/-- An expression has its value as a literal, if it is one, whatever is bound or done before. -/
def ValuedAsLiteral (e : Expr) : Prop :=
  ∀ v, e.literalValue? = some v → evaluate env e scope = pure v

variable {env scope}

theorem evaluateItems_of_literals {items : List Expr}
    (he : ∀ e ∈ items, ValuedAsLiteral env scope e) {values : List Value}
    (h : Expr.literalItems? items = some values) :
    evaluateItems env items scope = pure values := by
  induction items generalizing values with
  | nil =>
    cases h
    rw [evaluateItems]
  | cons item rest ih =>
    obtain ⟨v, hv, others, hothers, rfl⟩ : ∃ v, item.literalValue? = some v ∧
        ∃ others, Expr.literalItems? rest = some others ∧ v :: others = values := by
      simpa [Expr.literalItems?, Option.bind_eq_some_iff] using h
    have hfirst := he item List.mem_cons_self v hv
    have hrest := ih (fun e hmem => he e (List.mem_cons_of_mem _ hmem)) hothers
    simp only [evaluateItems, hfirst, hrest, pure_bind]

theorem evaluateEntries_of_literals {entries : List (String × Expr)}
    (he : ∀ entry ∈ entries, ValuedAsLiteral env scope entry.2) {fields : List (String × Value)}
    (h : Expr.literalEntries? entries = some fields) :
    evaluateEntries env entries scope = pure fields := by
  induction entries generalizing fields with
  | nil =>
    cases h
    rw [evaluateEntries]
  | cons entry rest ih =>
    obtain ⟨name, e⟩ := entry
    obtain ⟨v, hv, others, hothers, rfl⟩ : ∃ v, e.literalValue? = some v ∧
        ∃ others, Expr.literalEntries? rest = some others ∧ (name, v) :: others = fields := by
      simpa [Expr.literalEntries?, Option.bind_eq_some_iff] using h
    have hfirst := he (name, e) List.mem_cons_self v hv
    have hrest := ih (fun entry hmem => he entry (List.mem_cons_of_mem _ hmem)) hothers
    simp only [evaluateEntries, hfirst, hrest, pure_bind]

/-- A literal has its value under every binding and in every state. -/
theorem evaluate_of_literal (e : Expr) : ValuedAsLiteral env scope e := by
  induction e using Expr.rec' with
  | literal held =>
    intro v h
    cases h
    rw [evaluate]
  | list items ih =>
    intro v h
    obtain ⟨values, hvalues, rfl⟩ := Option.map_eq_some_iff.1 h
    simp only [evaluate, evaluateItems_of_literals ih hvalues, pure_bind]
  | map entries ih =>
    intro v h
    obtain ⟨fields, hfields, rfl⟩ := Option.map_eq_some_iff.1 h
    simp only [evaluate, evaluateEntries_of_literals ih hfields, pure_bind]
  | _ =>
    intro v h
    simp [Expr.literalValue?] at h

variable (env scope)

theorem argumentValues_of_literals {given : List (String × Expr)}
    (h : ∀ p e, given.lookup p = some e → ∃ v, e.literalValue? = some v)
    (parameters : List String) :
    argumentValues (mapGiven (meaning env) given) scope parameters =
      pure (literalValues given parameters) := by
  induction parameters with
  | nil => rfl
  | cons p rest ih =>
    simp only [argumentValues, lookup_mapGiven]
    rw [literalValues, List.filterMap_cons, ← literalValues]
    cases hp : given.lookup p with
    | none => exact ih
    | some e =>
      obtain ⟨v, hv⟩ := h p e hp
      have hvalue : (meaning env e).value scope = pure v := evaluate_of_literal e v hv
      simp only [Option.map_some, hvalue, pure_bind, ih, Option.bind_some, hv]
      cases hnull : v.isNull <;> simp [Option.filter, hnull]

/-- The values of literal arguments do not depend on the binding or on the state. -/
theorem commandValues_of_literals (c : Command) {arguments : List (Arg Expr)}
    (h : AllLiteral arguments) :
    commandValues c (meanings env arguments) scope = liftM (c.literalValues arguments) := by
  simp only [commandValues, meanings_eq_map, assign_map, Run.lift_map_bind, Command.literalValues]
  cases hassign : assign c.parameters arguments with
  | error fault => rfl
  | ok given =>
    refine argumentValues_of_literals env scope (fun p e hp => ?_) c.parameters
    obtain ⟨a, ha, rfl⟩ := mem_of_assign_lookup hassign hp
    exact h a ha

end Literals

/-! ## Runs with literal arguments -/

namespace Command

variable (env : Env) (c : Command) (arguments : List (Arg Expr))

theorem failsBare_runWith : (c.runWith env arguments).FailsBare := by
  unfold runWith literalValues
  have hassign := failsBare_assign c.parameters arguments
  cases hvalues : assign c.parameters arguments with
  | error fault =>
    have hbare := hassign fault hvalues
    exact fun s => failsBare_error hbare
  | ok given => exact failsBare_run env c _

theorem runWith_atomic : (c.runWith env arguments).Atomic :=
  Run.atomic_bind (Run.reads_lift _) (Run.atomic_command env c)

theorem runWith_oblivious : (c.runWith env arguments).Oblivious := by
  unfold runWith
  cases c.literalValues arguments with
  | error fault => exact fun _ _ _ => rfl
  | ok values => exact (commandObliviousness env).run c values

/-- A run with literal arguments neither passes over items nor looks at those passed over. -/
theorem exec_runWith_skipped (s : State) (skipped : Array SkippedItem) :
    (c.runWith env arguments).exec { s with skipped := skipped } =
      (((c.runWith env arguments).exec s).1,
        { ((c.runWith env arguments).exec s).2 with skipped := skipped }) := by
  have hkept : ((c.runWith env arguments).exec s).2.skipped = s.skipped := by
    rcases c.runWith_atomic env arguments s with ⟨fault, h⟩ | ⟨a, t, h, hskipped⟩
    · rw [h]
    · rw [h]
      exact hskipped
  exact (c.runWith_oblivious env arguments).exec_skipped rfl hkept skipped

end Command

/-! ## Addressing tracks -/

/-- The index of a track record: a map with an integer index. -/
def Value.trackIndex? (item : Value) : Option Int64 := (item.field? "index").bind Value.int?

/-- The call that aims at the track at an index by its number. -/
def trackById (index : Int64) : Call := ⟨"track", [⟨some "id", .literal (.int (index + 1))⟩]⟩

/-- Aims at the track at an index by its number, and then runs a command. -/
def addressTrack (env : Env) (c : Command) (arguments : List (Arg Expr)) (index : Int64) :
    Run Value := do
  let _ ← (trackById index).run env
  Call.run env ⟨c.name, arguments⟩

/-- What addressing a track has done: the actions that it has appended, and the fault that it has
ended with, if it has failed. -/
structure Attempt where
  appended : List Action
  fault? : Option Fault

/-- The fault of an outcome that is one. -/
def faultOf? {α : Type} : Except Fault α → Option Fault
  | .ok _ => none
  | .error fault => some fault

/-- What addressing a track does from a state. -/
def attemptAt (env : Env) (c : Command) (arguments : List (Arg Expr)) (index : Int64) (s : State) :
    Attempt :=
  let (outcome, t) := (addressTrack env c arguments index).exec s
  ⟨t.actions.toList.drop s.actions.size, faultOf? outcome⟩

/-- Addresses tracks one after the other, each from the state that those before it have left, also
where they have failed. -/
def addressEach (env : Env) (c : Command) (arguments : List (Arg Expr)) :
    List Int64 → State → List Attempt × State
  | [], s => ([], s)
  | index :: rest, s =>
    let t := ((addressTrack env c arguments index).exec s).2
    let (others, u) := addressEach env c arguments rest t
    (attemptAt env c arguments index s :: others, u)

/-- The items that a visit passes over, if it fails where the attempts at them fail. -/
def passedOver (position : Nat) (attempts : List Attempt) : List SkippedItem :=
  (attempts.zipIdx position).filterMap fun (attempt, i) =>
    attempt.fault?.map fun fault => ⟨"for_each", i, fault.root.message⟩

/-- What is passed over for attempts is passed over for the first and for the others. -/
theorem passedOver_cons (position : Nat) (attempt : Attempt) (attempts : List Attempt) :
    passedOver position (attempt :: attempts) =
      passedOver position [attempt] ++ passedOver (position + 1) attempts := by
  simp only [passedOver, List.zipIdx_cons, List.zipIdx_nil, ← List.filterMap_append,
    List.singleton_append]

theorem commandCall_name (c : Command) (arguments : List (Arg Expr)) :
    CommandCall c c.name arguments := by
  cases c with
  | set p => cases p <;> exact ⟨rfl, rfl⟩
  | _ => exact ⟨rfl, rfl⟩

section Address

variable (env : Env) {c : Command} {arguments : List (Arg Expr)} (h : AllLiteral arguments)

include h

/-- A call of a command with literal arguments runs the command on their values. -/
theorem run_of_literals : Call.run env ⟨c.name, arguments⟩ =
    tryCatch ((fun _ => Value.null) <$> c.runWith env arguments) fun fault =>
      throw (fault.within c.name (argumentsText arguments)) := by
  have hcall := commandCall_name c arguments
  have hnamed : runNamed env c.name (operands env arguments) none =
      (fun _ => Value.null) <$> c.runWith env arguments := by
    simp only [runNamed_of_command env arguments none hcall.not_combinator hcall.command,
      runCommand, commandValues_of_literals env none c h, Command.runWith, map_eq_pure_bind,
      bind_assoc]
  simp only [Call.run, runCall, hnamed]

end Address

/-- A call of a command with one literal argument does what the command does on its value. -/
theorem exec_run_of_literal {env : Env} {c : Command} {a : Arg Expr} {values : Values} {v : Value}
    {s t : State} (hliteral : a.value.literalValue? = some v)
    (hvalues : c.literalValues [a] = .ok values)
    (h : (c.run env values).exec s = (.ok (), t)) :
    (Call.run env ⟨c.name, [a]⟩).exec s = (.ok .null, t) := by
  have hrun : c.runWith env [a] = c.run env values := by
    rw [Command.runWith, hvalues, Run.lift_ok_bind]
  rw [run_of_literals env (allLiteral_singleton hliteral), Run.exec_within, Run.exec_map, hrun, h]
  rfl

/-- The number of a track that is not the last one possible is one above its index. -/
theorem word?_number {index : Int64} (hroom : index < Int64.maxValue) :
    word? ((index + 1).toInt - 1) = some index := by
  have hlt := Int64.lt_iff_toInt_lt.1 hroom
  have hge := index.le_toInt
  rw [Int64.toInt_maxValue] at hlt
  have hsum : (index + 1).toInt = index.toInt + 1 := by
    rw [Int64.toInt_add, Int64.toInt_one]
    exact Int.bmod_eq_of_le (by omega) (by omega)
  rw [word?_eq_some_iff, hsum]
  omega

/-- Addressing a track by its number aims at it. -/
theorem exec_trackById (env : Env) {index : Int64} (hroom : index < Int64.maxValue) (s : State) :
    ((trackById index).run env).exec s = (.ok .null, { s with target := index }) := by
  have haim : Command.runTrack env [("id", .int (index + 1))] = Run.aim index := by
    have hid : Values.int [("id", .int (index + 1))] "id" = .ok (some (index + 1)) := rfl
    rw [Command.runTrack, hid, Run.lift_ok_bind]
    simp only [word?_number hroom]
  refine exec_run_of_literal (c := .track) rfl rfl ?_
  change (Command.runTrack env [("id", .int (index + 1))]).exec s = _
  rw [haim, Run.exec_aim]

/-- Addressing a track runs the command with the track bound, and leaves it bound. -/
theorem exec_addressTrack (env : Env) {c : Command} {arguments : List (Arg Expr)}
    (h : AllLiteral arguments) {index : Int64} (hroom : index < Int64.maxValue) (s : State) :
    (addressTrack env c arguments index).exec s =
      ((((c.runWith env arguments).exec { s with target := index }).1.map
          fun _ => Value.null).mapError (Fault.within c.name (argumentsText arguments)),
        ((c.runWith env arguments).exec { s with target := index }).2) := by
  rw [addressTrack, Run.exec_bind_ok (exec_trackById env hroom s), run_of_literals env h,
    Run.exec_within, Run.exec_map]

theorem addressTrack_appends (env : Env) (c : Command) (arguments : List (Arg Expr))
    (index : Int64) : (addressTrack env c arguments index).Appends := by
  have hcall (d : Call) : (Call.run env d).Appends := by
    have happends := evaluate_appends env d.expr none
    rwa [Call.expr, evaluate] at happends
  exact Run.appends_bind (hcall _) fun _ => hcall _

/-- The actions after addressing tracks are those from before and what each attempt has
appended. -/
theorem actions_addressEach (env : Env) (c : Command) (arguments : List (Arg Expr))
    (indexes : List Int64) (s : State) :
    (addressEach env c arguments indexes s).2.actions.toList = s.actions.toList ++
      (addressEach env c arguments indexes s).1.flatMap Attempt.appended := by
  induction indexes generalizing s with
  | nil => simp [addressEach]
  | cons index rest ih =>
    have hprefix := (addressTrack_appends env c arguments index s).actions
    have hsplit := List.prefix_iff_eq_append.1 hprefix
    rw [Array.length_toList] at hsplit
    simp only [addressEach, attemptAt, ih, List.flatMap_cons, ← List.append_assoc, hsplit]

/-! ## Visits of tracks -/

/-- Arguments of `add_fx` that give an effect or an instrument, null not counting. -/
def GivesFx (arguments : List (Arg Expr)) : Prop :=
  ∀ values, Command.addFx.literalValues arguments = .ok values →
    (values.lookup "fxname").isSome ∨ (values.lookup "instrument").isSome

/-- A state with another track bound and with other items passed over. -/
def State.recast (track : Int64) (skipped : Array SkippedItem) (s : State) : State :=
  { s with target := track, skipped := skipped }

section Visits

variable {env : Env} {c : Command} {arguments : List (Arg Expr)} (hliteral : AllLiteral arguments)
  (hfx : c = .addFx → GivesFx arguments)

include hfx

/-- Where an effect is given there is no default one. -/
theorem withDefaultFx_of_given {values : Values} (h : c.literalValues arguments = .ok values) :
    c.withDefaultFx env values = values := by
  unfold Command.withDefaultFx
  rw [if_neg]
  rintro ⟨rfl, hname, hinstrument⟩
  rcases hfx rfl values h with hgiven | hgiven
  · simp [Option.isNone_iff_eq_none.1 hname] at hgiven
  · simp [Option.isNone_iff_eq_none.1 hinstrument] at hgiven

include hliteral

/-- On a track record a command runs with the track bound for this once. -/
theorem runCommandOnItem_of_track {item : Value} {index : Int64}
    (hindex : item.trackIndex? = some index) (name : String) :
    runCommandOnItem env c (meanings env arguments) ⟨name, item⟩ =
      (fun _ => Value.null) <$> Run.aimedAt index (c.runWith env arguments) := by
  have hbound : (item.field? "index").bind Value.int? = some index := hindex
  unfold runCommandOnItem Command.runWith Command.runOnItem
  rw [commandValues_of_literals env _ c hliteral]
  cases hvalues : c.literalValues arguments with
  | error fault => exact Run.ext fun s => rfl
  | ok values =>
    simp only [Run.lift_ok_bind, hbound, withDefaultFx_of_given hfx hvalues, map_eq_pure_bind]

/-- On a track record a command does what addressing the track does, but for the track that is
bound before and after and for the items passed over. -/
theorem exec_runCommandOnItem_of_track {item : Value} {index : Int64}
    (hindex : item.trackIndex? = some index) (name : String) (s : State) (track : Int64)
    (skipped : Array SkippedItem) :
    (runCommandOnItem env c (meanings env arguments) ⟨name, item⟩).exec (s.recast track skipped) =
      (((c.runWith env arguments).exec { s with target := index }).1.map fun _ => Value.null,
        ((c.runWith env arguments).exec { s with target := index }).2.recast track skipped) := by
  have hrun := c.exec_runWith_skipped env arguments { s with target := index } skipped
  rw [runCommandOnItem_of_track hliteral hfx hindex, Run.exec_map, Run.exec_aimedAt]
  simp only [State.recast, hrun]

variable (hlenient : env.config.strict = false)

include hlenient

/-- A visited track record is passed over where addressing the track fails, for the same root, and
the track from before is bound again. -/
theorem exec_settle_of_track {item : Value} {index : Int64}
    (hindex : item.trackIndex? = some index) (hroom : index < Int64.maxValue) (name : String)
    (position : Nat) (s : State) (track : Int64) (skipped : Array SkippedItem) :
    ∃ result, (settle env .forEach position
        (runCommandOnItem env c (meanings env arguments) ⟨name, item⟩)).exec
          (s.recast track skipped) =
      (.ok result, ((addressTrack env c arguments index).exec s).2.recast track
        (skipped ++ (passedOver position [attemptAt env c arguments index s]).toArray)) := by
  have hbare := c.failsBare_runWith env arguments { s with target := index }
  rw [Run.exec_settle, exec_runCommandOnItem_of_track hliteral hfx hindex, attemptAt,
    exec_addressTrack env hliteral hroom]
  cases hrun : (c.runWith env arguments).exec { s with target := index } with
  | mk outcome t =>
    rw [hrun] at hbare
    cases outcome with
    | ok done => exact ⟨some .null, by simp [passedOver, faultOf?, Except.map, Except.mapError]⟩
    | error fault =>
      have hroot : fault.root = fault := Fault.root_of_isBare (hbare fault rfl)
      refine ⟨none, ?_⟩
      simp [passedOver, faultOf?, Except.map, Except.mapError, hlenient, hroot, State.skip,
        State.recast, Combinator.name]

/-- A visit of track records does what addressing the tracks one after the other does. -/
theorem exec_visitFrom_of_tracks {items : List Value} {indexes : List Int64}
    (hindexes : List.Forall₂ (fun item index => item.trackIndex? = some index) items indexes)
    (hroom : ∀ index ∈ indexes, index < Int64.maxValue) (name : String) (position : Nat)
    (s : State) (track : Int64) (skipped : Array SkippedItem) :
    ∃ visited, (visitFrom env .forEach name (runCommandOnItem env c (meanings env arguments))
        position items).exec (s.recast track skipped) =
      (.ok visited, (addressEach env c arguments indexes s).2.recast track
        (skipped ++ (passedOver position (addressEach env c arguments indexes s).1).toArray)) := by
  induction hindexes generalizing position s skipped with
  | nil => exact ⟨[], by simp [visitFrom, addressEach, passedOver]⟩
  | @cons item index items indexes hindex _ ih =>
    obtain ⟨result, hsettle⟩ := exec_settle_of_track hliteral hfx hlenient hindex
      (hroom index List.mem_cons_self) name position s track skipped
    -- the others are visited from where addressing the first one ends
    obtain ⟨visited, hvisit⟩ := ih (fun i hi => hroom i (List.mem_cons_of_mem _ hi))
      (position + 1) ((addressTrack env c arguments index).exec s).2
      (skipped ++ (passedOver position [attemptAt env c arguments index s]).toArray)
    have hpassed := passedOver_cons position (attemptAt env c arguments index s)
      (addressEach env c arguments indexes ((addressTrack env c arguments index).exec s).2).1
    rw [visitFrom, Run.exec_bind_ok hsettle, Run.exec_bind_ok hvisit]
    simp only [addressEach, hpassed, Run.exec_pure, Array.append_assoc, List.append_toArray]
    exact ⟨_, rfl⟩

end Visits

/-- What `for_each` does with a command on the items of a collection. -/
theorem exec_forEach_command (env : Env) (c : Command) (arguments : List (Arg Expr)) {source : Expr}
    {scope : Option Binding} {s s₀ t : State} {items : List Value} {name : String}
    {visited : List (Value × Value)}
    (hitems : (collection (meaning env source) scope).exec s = (.ok (items, name), s₀))
    (hvisit : (visit env .forEach name (runCommandOnItem env c (meanings env arguments)) items).exec
      s₀ = (.ok visited, t)) :
    (evaluate env (.call "for_each" [⟨none, source⟩, ⟨none, .function c.name arguments⟩])
      scope).exec s = (.ok .null, t) := by
  have hcall : VisitCall env .forEach "for_each"
      [⟨none, source⟩, ⟨none, .function c.name arguments⟩] (.function c.name arguments) source
      (runCommandOnItem env c (meanings env arguments)) := by
    refine ⟨⟨_, "func", ⟨rfl, rfl⟩, rfl, rfl, rfl⟩, ?_⟩
    simp only [callback, operand, meaning, (commandCall_name c arguments).command, ownArguments]
  rw [evaluate_visitCall hcall, Run.exec_within, Run.exec_bind_ok hitems, Run.exec_bind_ok hvisit]
  rfl

/-- A command with literal arguments that `for_each` gets as a callback for track records does what
addressing each of the tracks by its number and running the command does. It appends the same
actions, in the order of the items, and leaves the same counter and symbols; it passes over an item
exactly where addressing its track fails, for the root of that fault; and the track that was bound
before is bound again, whichever items have failed. -/
theorem forEach_track_addresses_each (env : Env) (c : Command) (arguments : List (Arg Expr))
    (hlenient : env.config.strict = false) (hliteral : AllLiteral arguments)
    (hfx : c = .addFx → GivesFx arguments) {source : Expr} {scope : Option Binding}
    {s s₀ : State} {items : List Value} {name : String} {indexes : List Int64}
    (hitems : (collection (meaning env source) scope).exec s = (.ok (items, name), s₀))
    (hindexes : List.Forall₂ (fun item index => item.trackIndex? = some index) items indexes)
    (hroom : ∀ index ∈ indexes, index < Int64.maxValue) :
    let (attempts, u) := addressEach env c arguments indexes s₀
    ∃ t, (evaluate env (.call "for_each" [⟨none, source⟩, ⟨none, .function c.name arguments⟩])
        scope).exec s = (.ok .null, t) ∧
      t.actions.toList = s₀.actions.toList ++ attempts.flatMap Attempt.appended ∧
      t.counter = u.counter ∧ t.symbols = u.symbols ∧
      t.skipped.toList = s₀.skipped.toList ++ passedOver 0 attempts ∧
      t.target = s₀.target := by
  obtain ⟨visited, hvisit⟩ := exec_visitFrom_of_tracks hliteral hfx hlenient hindexes hroom name 0
    s₀ s₀.target s₀.skipped
  have hactions := actions_addressEach env c arguments indexes s₀
  refine ⟨_, exec_forEach_command env c arguments hitems hvisit, hactions, rfl, rfl, ?_, rfl⟩
  simp [State.recast]

/-- Track records, one of which has no track to go to. -/
def tracksWithout : List Value := [2, -1, 0].map fun index => .map [("index", .int index)]

/-- A clip on each of the tracks: the second one is passed over, and the bound track stays. -/
theorem forEach_newClip_tracksWithout :
    ∃ t, (evaluate ⟨none, {}⟩ (.call "for_each" [⟨none, .literal (.list tracksWithout)⟩,
        ⟨none, .function "new_clip" [⟨some "bar", .literal (.int 3)⟩]⟩]) none).exec
          { State.fresh #[] with target := 7 } = (.ok .null, t) ∧
      t.actions.toList = [2, 0].map (fun track => .of .createClipAtBar
        [("track", .int track), ("bar", .int 3), ("length_bars", .int 4)]) ∧
      t.skipped.toList.map SkippedItem.position = [1] ∧ t.target = 7 := by
  have hliteral : AllLiteral [⟨some "bar", .literal (.int 3)⟩] := by
    intro a ha
    cases List.mem_singleton.1 ha
    exact ⟨_, rfl⟩
  have hindexes : List.Forall₂ (fun item index => item.trackIndex? = some index) tracksWithout
      [2, -1, 0] := .cons rfl (.cons rfl (.cons rfl .nil))
  have hfx : Command.newClip = .addFx → GivesFx [⟨some "bar", .literal (.int 3)⟩] := by
    intro h
    cases h
  have hroom : ∀ index ∈ [2, -1, 0], index < Int64.maxValue := by
    intro index hindex
    simp only [List.mem_cons, List.not_mem_nil, or_false] at hindex
    rcases hindex with rfl | rfl | rfl <;> decide
  have hitems : (collection (meaning ⟨none, {}⟩ (.literal (.list tracksWithout))) none).exec
      { State.fresh #[] with target := 7 } =
        (.ok (tracksWithout, "item"), { State.fresh #[] with target := 7 }) := by
    simp only [collection_eq, meaning, Expr.name?, evaluate, pure_bind]
    rfl
  obtain ⟨t, hexec, hactions, -, -, hskipped, htarget⟩ := forEach_track_addresses_each ⟨none, {}⟩
    .newClip [⟨some "bar", .literal (.int 3)⟩] rfl hliteral hfx hitems hindexes hroom
  refine ⟨t, hexec, ?_, ?_, htarget⟩
  · rw [hactions]
    rfl
  · rw [hskipped]
    rfl

end DawScript
