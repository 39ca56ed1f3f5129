import DawScript.Proofs.BareFaults
import DawScript.Proofs.CommandEffect

/-!
# The steps of commands

Commands are made of a few steps: reading arguments, finding the track, moving the counter on,
aiming and emitting. A property that these steps have, and that sequencing keeps, is one of every
command (`CommandProperty.run`). In particular commands fail with bare faults only.
-/

set_option autoImplicit false

namespace DawScript

/-- A property of runs that the steps of commands have and that sequencing keeps. -/
structure CommandProperty (env : Env) where
  holds : {α : Type} → Run α → Prop
  pure {α : Type} (a : α) : holds (pure a)
  throw {α : Type} {fault : Fault} : fault.isBare = true → holds (throw fault : Run α)
  bind {α β : Type} {x : Run α} {f : α → Run β} : holds x → (∀ a, holds (f a)) → holds (x >>= f)
  track (call : String) : holds (Run.track env call)
  counter : holds (State.counter <$> (get : Run State))
  countFrom (index : Int64) : holds (Run.countFrom index)
  aim (track : Int64) : holds (Run.aim track)
  emit (kind : ActionKind) (fields : List (String × Value)) : holds (Run.emit kind fields)

namespace CommandProperty

variable {env : Env} (P : CommandProperty env)

/-- Reading an argument fails barely or gives a value that the rest goes on with. -/
theorem typed_bind {α β : Type} {type : ArgumentType} {read : Value → Option α} {values : Values}
    {parameter : String} {f : Option α → Run β} (h : ∀ a, P.holds (f a)) :
    P.holds (liftM (values.typed type read parameter) >>= f) := by
  have hbare := failsBare_typed type read values parameter
  cases hread : values.typed type read parameter with
  | ok a =>
    rw [Run.lift_ok_bind]
    exact h a
  | error fault =>
    rw [Run.lift_error_bind]
    exact P.throw (hbare fault hread)

theorem placeTrack (index : Option Int64) : P.holds (Command.placeTrack index) := by
  cases index with
  | none =>
    have hnext : P.holds (State.counter <$> get >>= fun i =>
        Run.countFrom i >>= fun _ => (Pure.pure i : Run Int64)) :=
      P.bind P.counter fun i => P.bind (P.countFrom i) fun _ => P.pure i
    rwa [bind_map_left] at hnext
  | some i =>
    unfold Command.placeTrack
    by_cases hneg : i < 0
    · simp only [hneg, if_true]
      exact P.bind (P.throw rfl) fun _ => P.bind (P.countFrom i) fun _ => P.pure i
    · simp only [hneg, if_false]
      exact P.bind (P.countFrom i) fun _ => P.pure i

theorem createTrack (values : Values) : P.holds (Command.createTrack values) := by
  apply P.typed_bind
  intro instrument
  apply P.typed_bind
  intro name
  apply P.typed_bind
  intro index
  apply P.bind (P.placeTrack index)
  intro i
  exact P.bind (P.aim i) fun _ => P.emit _ _

theorem runTrack (values : Values) : P.holds (Command.runTrack env values) := by
  apply P.typed_bind
  intro id
  cases id with
  | some id =>
    simp only
    cases word? (id.toInt - 1) with
    | some index => exact P.aim index
    | none => exact P.throw rfl
  | none =>
    apply P.typed_bind
    intro selected
    split
    · cases env.selected? with
      | some index => exact P.aim index
      | none => exact P.throw rfl
    · exact P.createTrack values

theorem runNewClip (values : Values) : P.holds (Command.runNewClip env values) := by
  apply P.bind (P.track _)
  intro track
  apply P.typed_bind
  intro bar
  cases bar with
  | some bar => exact P.typed_bind fun length => P.emit _ _
  | none =>
    apply P.typed_bind
    intro start
    cases start with
    | some x => exact P.typed_bind fun length => P.emit _ _
    | none =>
      apply P.typed_bind
      intro position
      cases position with
      | some x => exact P.typed_bind fun length => P.emit _ _
      | none => exact P.throw rfl

theorem runAddMidi (values : Values) : P.holds (Command.runAddMidi env values) := by
  apply P.bind (P.track _)
  intro track
  exact P.typed_bind fun notes => P.emit _ _

theorem runAddFx (values : Values) : P.holds (Command.runAddFx env values) := by
  apply P.bind (P.track _)
  intro track
  apply P.typed_bind
  intro fx
  cases fx with
  | some fx => exact P.emit _ _
  | none =>
    apply P.typed_bind
    intro instrument
    cases instrument with
    | some instrument => exact P.emit _ _
    | none => exact P.throw rfl

theorem runSet (p : Property) (values : Values) : P.holds (Command.runSet env p values) := by
  apply P.bind (P.track _)
  intro track
  cases Command.propertyValue? p values with
  | none => exact P.throw rfl
  | some found =>
    simp only
    cases p.payload? found.2 with
    | some payload => exact P.emit _ _
    | none => exact P.throw rfl

/-- The property holds of every command. -/
theorem run (c : Command) (values : Values) : P.holds (c.run env values) := by
  cases c with
  | track => exact P.runTrack values
  | newClip => exact P.runNewClip values
  | addMidi => exact P.runAddMidi values
  | addFx => exact P.runAddFx values
  | set p => exact P.runSet p values

end CommandProperty

namespace Run

variable {α β : Type}

/-- A run fails with bare faults only. -/
def FailsBare (x : Run α) : Prop := ∀ s, DawScript.FailsBare (x.exec s).1

theorem failsBare_bind {x : Run α} {f : α → Run β} (hx : FailsBare x)
    (hf : ∀ a, FailsBare (f a)) : FailsBare (x >>= f) := by
  intro s
  have hs := hx s
  rw [exec_bind]
  generalize x.exec s = result at hs
  rcases result with ⟨fault | a, t⟩
  · exact failsBare_error (hs fault rfl)
  · exact hf a t

theorem failsBare_track (env : Env) (call : String) : FailsBare (track env call) := by
  intro s
  rw [exec_track]
  cases env.aimed? s with
  | some t => exact failsBare_ok t
  | none => exact failsBare_error rfl

theorem failsBare_countFrom (index : Int64) : FailsBare (countFrom index) := by
  intro s
  rw [exec_countFrom]
  cases word? (index.toInt + 1) with
  | some next => exact failsBare_ok ()
  | none => exact failsBare_error rfl

end Run

/-- Failing with bare faults only as a property of commands. -/
def bareness (env : Env) : CommandProperty env where
  holds := Run.FailsBare
  pure a _ := failsBare_ok a
  throw h _ := failsBare_error h
  bind := Run.failsBare_bind
  track := Run.failsBare_track env
  counter s := failsBare_ok s.counter
  countFrom := Run.failsBare_countFrom
  aim _ _ := failsBare_ok ()
  emit _ _ _ := failsBare_ok ()

/-- Commands fail with bare faults only. -/
theorem Command.failsBare_run (env : Env) (c : Command) (values : Values) :
    (c.run env values).FailsBare := (bareness env).run c values

end DawScript
