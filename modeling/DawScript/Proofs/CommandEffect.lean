import DawScript.Proofs.Execution

/-!
# What commands do

Everything that a command can do to a state, said once: it fails and leaves the state as it was, or
it succeeds with one of the effects of `Command.Does` (`Command.exec_run`). A command that succeeds
either aims at a track without an action or emits exactly one action.
-/

set_option autoImplicit false

namespace DawScript

/-- The track that a command for a track goes to: the bound one, else the first selected one. -/
def Env.aimed? (env : Env) (s : State) : Option Int64 := s.track?.or env.selected?

namespace Run

theorem exec_track (env : Env) (call : String) (s : State) :
    (track env call).exec s = match env.aimed? s with
      | some t => (.ok t, s)
      | none => (.error (.noTrackContext call), s) := by
  rw [track, exec_bind_ok (exec_get s)]
  simp only [Env.aimed?]
  cases s.track? with
  | some t => rfl
  | none =>
    cases env.selected? with
    | some t => rfl
    | none => rfl

theorem exec_countFrom (index : Int64) (s : State) :
    (countFrom index).exec s = match word? (index.toInt + 1) with
      | some next => (.ok (), { s with counter := next })
      | none => (.error (.invalidArgument "index" .indexExhausted), s) := by
  unfold countFrom
  cases word? (index.toInt + 1) with
  | some next => rfl
  | none => rfl

end Run

namespace Property

/-- The values that a property can be set to. -/
def Admits : Property → Value → Prop
  | .volume, v | .pan, v => ∃ x, v = .float x
  | .mute, v | .solo, v => ∃ b, v = .bool b
  | .name, v => ∃ s, v = .string s

/-- The payload of a property is of its type. -/
theorem admits_of_payload? {p : Property} {v payload : Value} (h : p.payload? v = some payload) :
    p.Admits payload := by
  cases p with
  | volume | pan =>
    obtain ⟨x, -, rfl⟩ := Option.map_eq_some_iff.1 h
    exact ⟨x, rfl⟩
  | mute | solo =>
    obtain ⟨b, -, rfl⟩ := Option.map_eq_some_iff.1 h
    exact ⟨b, rfl⟩
  | name =>
    obtain ⟨s, -, rfl⟩ := Option.map_eq_some_iff.1 h
    exact ⟨s, rfl⟩

end Property

namespace Command

/-- The effects that a command can have on a state when it succeeds. -/
inductive Does (env : Env) (s : State) : Command → State → Prop where
  | aim (track : Int64) : Does env s .track { s with target := track }
  | create (instrument name : Option String) (index next : Int64) :
      0 ≤ index ∨ index = s.counter → word? (index.toInt + 1) = some next →
      Does env s .track ({ s with target := index, counter := next }.emit (.of .createTrack
        (textField "instrument" instrument ++ textField "name" name ++
          [("index", Value.int index)])))
  | clipAtBar (track bar length : Int64) : env.aimed? s = some track →
      Does env s .newClip (s.emit (.of .createClipAtBar
        [("track", .int track), ("bar", .int bar), ("length_bars", .int length)]))
  | clip (track : Int64) (position length : Float) : env.aimed? s = some track →
      Does env s .newClip (s.emit (.of .createClip
        [("track", .int track), ("position", .float position), ("length", .float length)]))
  | midi (track : Int64) (notes : List Value) : env.aimed? s = some track →
      Does env s .addMidi (s.emit (.of .addMidi [("track", .int track), ("notes", .list notes)]))
  | fx (track : Int64) (fx : String) : env.aimed? s = some track →
      Does env s .addFx (s.emit (.of .addTrackFx [("track", .int track), ("fxname", .string fx)]))
  | instrument (track : Int64) (instrument : String) : env.aimed? s = some track →
      Does env s .addFx (s.emit (.of .addInstrument
        [("track", .int track), ("fxname", .string instrument)]))
  | set (p : Property) (track : Int64) (payload : Value) : env.aimed? s = some track →
      p.Admits payload →
      Does env s (.set p) (s.emit (.of p.actionKind [("track", .int track), (p.field, payload)]))

/-- A step fails and leaves the state, or succeeds with an effect of the command. -/
def Fits (env : Env) (c : Command) (s : State) (x : Run Unit) : Prop :=
  (∃ fault, x.exec s = (.error fault, s)) ∨ ∃ t, x.exec s = (.ok (), t) ∧ Does env s c t

section Fits

variable {env : Env} {c : Command} {s : State}

theorem fits_throw (fault : Fault) : Fits env c s (throw fault) := Or.inl ⟨fault, rfl⟩

/-- A step that begins with reading an argument fits if the rest does for every value read. -/
theorem fits_lift_bind {α : Type} {x : Except Fault α} {f : α → Run Unit}
    (h : ∀ a, Fits env c s (f a)) : Fits env c s (liftM x >>= f) := by
  cases x with
  | ok a =>
    rw [Run.lift_ok_bind]
    exact h a
  | error fault =>
    rw [Run.lift_error_bind]
    exact fits_throw fault

/-- A step that begins with finding its track fits if the rest does for the track found. -/
theorem fits_track_bind {call : String} {f : Int64 → Run Unit}
    (h : ∀ track, env.aimed? s = some track → Fits env c s (f track)) :
    Fits env c s (Run.track env call >>= f) := by
  have hexec := Run.exec_track env call s
  cases htrack : env.aimed? s with
  | some track =>
    rw [htrack] at hexec
    unfold Fits
    rw [Run.exec_bind_ok hexec]
    exact h track htrack
  | none =>
    rw [htrack] at hexec
    exact Or.inl ⟨_, Run.exec_bind_error hexec f⟩

theorem fits_emit {kind : ActionKind} {fields : List (String × Value)}
    (h : Does env s c (s.emit (.of kind fields))) : Fits env c s (Run.emit kind fields) :=
  Or.inr ⟨_, rfl, h⟩

end Fits

variable (env : Env) (s : State) (values : Values)

/-- A new track is placed at an index that is not negative or at the counter. -/
theorem exec_placeTrack (index : Option Int64) :
    (∃ fault, (placeTrack index).exec s = (.error fault, s)) ∨
      ∃ i next, (placeTrack index).exec s = (.ok i, { s with counter := next }) ∧
        (0 ≤ i ∨ i = s.counter) ∧ word? (i.toInt + 1) = some next := by
  cases index with
  | none =>
    simp only [placeTrack, Run.nextIndex, Run.exec_bind, Run.exec_get, Run.exec_countFrom]
    cases hnext : word? (s.counter.toInt + 1) with
    | none => exact Or.inl ⟨_, rfl⟩
    | some next => exact Or.inr ⟨s.counter, next, rfl, Or.inr rfl, hnext⟩
  | some i =>
    -- an index below zero is refused before the counter moves
    by_cases hneg : i < 0
    · simp only [placeTrack, hneg, if_true]
      exact Or.inl ⟨_, rfl⟩
    · simp only [placeTrack, hneg, if_false, Run.exec_bind, Run.exec_countFrom]
      cases hnext : word? (i.toInt + 1) with
      | none => exact Or.inl ⟨_, rfl⟩
      | some next => exact Or.inr ⟨i, next, rfl, Or.inl (Int64.not_lt.1 hneg), hnext⟩

theorem fits_createTrack : Fits env .track s (createTrack values) := by
  apply fits_lift_bind
  intro instrument
  apply fits_lift_bind
  intro name
  apply fits_lift_bind
  intro index
  -- a track is only created after the counter has been moved on
  rcases exec_placeTrack s index with ⟨fault, hplace⟩ | ⟨i, next, hplace, hindex, hnext⟩
  · exact Or.inl ⟨fault, Run.exec_bind_error hplace _⟩
  · refine Or.inr ⟨_, ?_, Does.create instrument name i next hindex hnext⟩
    rw [Run.exec_bind_ok hplace]
    rfl

theorem fits_runTrack : Fits env .track s (runTrack env values) := by
  apply fits_lift_bind
  intro id
  cases id with
  | some id =>
    simp only
    cases word? (id.toInt - 1) with
    | some index => exact Or.inr ⟨_, rfl, Does.aim index⟩
    | none => exact fits_throw _
  | none =>
    apply fits_lift_bind
    intro selected
    split
    · -- the selected track is only aimed at
      cases env.selected? with
      | some index => exact Or.inr ⟨_, rfl, Does.aim index⟩
      | none => exact fits_throw _
    · exact fits_createTrack env s values

theorem fits_runNewClip : Fits env .newClip s (runNewClip env values) := by
  apply fits_track_bind
  intro track htrack
  apply fits_lift_bind
  intro bar
  cases bar with
  | some bar =>
    apply fits_lift_bind
    intro length
    exact fits_emit (Does.clipAtBar track bar _ htrack)
  | none =>
    apply fits_lift_bind
    intro start
    -- `start` and `position` are two names for the same field
    have hclip (position : Float) :
        Fits env .newClip s (liftM (values.number "length") >>= fun length =>
          Run.emit .createClip [("track", .int track), ("position", .float position),
            ("length", .float (length.getD env.config.clipLength))]) :=
      fits_lift_bind fun length => fits_emit (Does.clip track position _ htrack)
    cases start with
    | some x => exact hclip x
    | none =>
      apply fits_lift_bind
      intro position
      cases position with
      | some x => exact hclip x
      | none => exact fits_throw _

theorem fits_runAddMidi : Fits env .addMidi s (runAddMidi env values) := by
  apply fits_track_bind
  intro track htrack
  apply fits_lift_bind
  intro notes
  exact fits_emit (Does.midi track _ htrack)

theorem fits_runAddFx : Fits env .addFx s (runAddFx env values) := by
  apply fits_track_bind
  intro track htrack
  apply fits_lift_bind
  intro fx
  cases fx with
  | some fx => exact fits_emit (Does.fx track fx htrack)
  | none =>
    apply fits_lift_bind
    intro instrument
    cases instrument with
    | some instrument => exact fits_emit (Does.instrument track instrument htrack)
    | none => exact fits_throw _

theorem fits_runSet (p : Property) : Fits env (.set p) s (runSet env p values) := by
  apply fits_track_bind
  intro track htrack
  cases propertyValue? p values with
  | none => exact fits_throw _
  | some found =>
    obtain ⟨parameter, v⟩ := found
    simp only
    cases hpayload : p.payload? v with
    | none => exact fits_throw _
    | some payload =>
      exact fits_emit (Does.set p track payload htrack (Property.admits_of_payload? hpayload))

/-- A command fails and leaves the state as it was, or succeeds with one of its effects. -/
theorem exec_run (c : Command) :
    (∃ fault, (c.run env values).exec s = (.error fault, s)) ∨
      ∃ t, (c.run env values).exec s = (.ok (), t) ∧ Does env s c t := by
  cases c with
  | track => exact fits_runTrack env s values
  | newClip => exact fits_runNewClip env s values
  | addMidi => exact fits_runAddMidi env s values
  | addFx => exact fits_runAddFx env s values
  | set p => exact fits_runSet env s values p

end Command

end DawScript
