import DawScript.Proofs.TrackCallbacks
import DawScript.Proofs.TrackNumbers

/-!
# Explicit arguments of callbacks

What an item that is no track adds to the arguments of a command that visits it. The item stands for
the first parameter without a value, so it leaves what the arguments say about the action, unless
that parameter is the one that overrules the others of the command
(`callback_keeps_explicit_arguments`).
-/

set_option autoImplicit false

namespace DawScript

/-! ## Parameters and fields -/

namespace Command

/-- The parameter whose value a command looks at first: if there is one, the values of other
parameters do not matter. -/
def overruling : Command → String
  | .track => "id"
  | .newClip => "bar"
  | .addMidi => "note"
  | .addFx => "fxname"
  | .set p => p.field

/-- Which parameters say something about which fields of the payload. -/
def determines : Command → List (String × String)
  | .track => [("instrument", "instrument"), ("name", "name"), ("index", "index")]
  | .newClip => [("bar", "bar"), ("length_bars", "length_bars"), ("start", "position"),
      ("position", "position"), ("length", "length")]
  | .addMidi => [("notes", "notes"), ("note", "notes")]
  | .addFx => [("fxname", "fxname"), ("instrument", "fxname")]
  | .set p => [(p.field, p.field), ("value", p.field)]

/-- A value is given for a parameter that says something about the field. -/
def Gives (c : Command) (values : Values) (field : String) : Prop :=
  ∃ parameter v, (parameter, field) ∈ c.determines ∧ values.lookup parameter = some v

/-- The parameter that an item stands for: the first one without a value. -/
def openParameter? (c : Command) (values : Values) : Option String :=
  c.parameters.find? fun parameter => (values.lookup parameter).isNone

/-- The value that a field has if only the item says something about it. -/
def fieldOfItem? (c : Command) (item : Value) : Option Value :=
  match c with
  | .addMidi => some (.list [item])
  | .set p => p.payload? item
  | _ => none

end Command

/-! ## Payloads from values -/

namespace Values

variable {values : Values} {p q : String} {item : Value}

theorem typed_eq_none {α : Type} {type : ArgumentType} {read : Value → Option α}
    (h : values.typed type read p = .ok none) : values.lookup p = none := by
  unfold typed at h
  split at h
  · next hnone => exact hnone
  · split at h <;> cases h

theorem typed_eq_some {α : Type} {type : ArgumentType} {read : Value → Option α} {a : α}
    (h : values.typed type read p = .ok (some a)) :
    ∃ v, values.lookup p = some v ∧ read v = some a := by
  unfold typed at h
  split at h
  · cases h
  · next v hv =>
    split at h
    · next hread =>
      cases h
      exact ⟨v, hv, hread⟩
    · cases h

/-- A value for a parameter that has none leaves the others. -/
theorem lookup_filled (hp : values.lookup p = none) :
    (values ++ [(p, item)]).lookup q = if q = p then some item else values.lookup q := by
  rw [List.lookup_append]
  by_cases hq : q = p
  · subst hq
    simp [hp]
  · have hne : (q == p) = false := beq_false_of_ne hq
    simp [hq, List.lookup_cons, hne]

end Values

namespace Fields

variable {α : Type} {name : String}

theorem find?_insertAll_eq_foldl (fields entries : List (String × α)) :
    find? name (insertAll fields entries) =
      entries.foldl (fun held entry => if entry.1 = name then some entry.2 else held)
        (find? name fields) := by
  induction entries generalizing fields with
  | nil => rfl
  | cons entry rest ih =>
    rw [insertAll, List.foldl_cons, ← insertAll, ih, List.foldl_cons, find?_insert]

/-- What is found under a name depends on the entries under that name only. -/
theorem find?_ofList_congr {entries others : List (String × α)}
    (h : entries.filter (fun entry => entry.1 = name) =
      others.filter (fun entry => entry.1 = name)) :
    find? name (ofList entries) = find? name (ofList others) := by
  have hfilter (list : List (String × α)) : find? name (ofList list) =
      (list.filter fun entry => entry.1 = name).foldl (fun _ entry => some entry.2) none := by
    rw [ofList, find?_insertAll_eq_foldl, List.foldl_filter]
    simp
  rw [hfilter, hfilter, h]

end Fields

namespace Command

/-- The action that a command emits for given values from a state. -/
inductive Emits (env : Env) (s : State) (values : Values) : Command → Action → Prop where
  | create {instrument name : Option String} {asked : Option Int64} :
      values.lookup "id" = none → values.bool "selected" ≠ .ok (some true) →
      values.string "instrument" = .ok instrument → values.string "name" = .ok name →
      values.int "index" = .ok asked →
      Emits env s values .track (.of .createTrack
        (textField "instrument" instrument ++ textField "name" name ++
          [("index", Value.int (asked.getD s.counter))]))
  | clipAtBar {track bar : Int64} {length : Option Int64} :
      env.aimed? s = some track → values.int "bar" = .ok (some bar) →
      values.int "length_bars" = .ok length →
      Emits env s values .newClip (.of .createClipAtBar
        [("track", .int track), ("bar", .int bar),
         ("length_bars", .int (length.getD env.config.lengthBars))])
  | clip {track : Int64} {position : Float} {length : Option Float} :
      env.aimed? s = some track → values.lookup "bar" = none →
      values.number "length" = .ok length →
      Emits env s values .newClip (.of .createClip
        [("track", .int track), ("position", .float position),
         ("length", .float (length.getD env.config.clipLength))])
  | midi {track : Int64} {notes : Option (List Value)} :
      env.aimed? s = some track → values.list "notes" = .ok notes →
      Emits env s values .addMidi (.of .addMidi [("track", .int track),
        ("notes", .list ((values.lookup "note").elim (notes.getD []) fun note => [note]))])
  | fx {track : Int64} {fx : String} :
      env.aimed? s = some track → values.string "fxname" = .ok (some fx) →
      Emits env s values .addFx (.of .addTrackFx [("track", .int track), ("fxname", .string fx)])
  | instrument {track : Int64} {instrument : String} :
      env.aimed? s = some track → values.lookup "fxname" = none →
      values.string "instrument" = .ok (some instrument) →
      Emits env s values .addFx (.of .addInstrument
        [("track", .int track), ("fxname", .string instrument)])
  | set {p : Property} {track : Int64} {parameter : String} {v payload : Value} :
      env.aimed? s = some track → propertyValue? p values = some (parameter, v) →
      p.payload? v = some payload →
      Emits env s values (.set p) (.of p.actionKind [("track", .int track), (p.field, payload)])

end Command

namespace Run

variable {α β : Type} {s t : State} {b : β}

/-- A run that begins with reading an argument and succeeds has read it. -/
theorem of_exec_lift_bind {x : Except Fault α} {f : α → Run β}
    (h : (liftM x >>= f).exec s = (.ok b, t)) : ∃ a, x = .ok a ∧ (f a).exec s = (.ok b, t) := by
  cases x with
  | ok a => exact ⟨a, rfl, by rwa [lift_ok_bind] at h⟩
  | error fault =>
    rw [lift_error_bind] at h
    cases h

/-- A run that begins with finding its track and succeeds has found it. -/
theorem of_exec_track_bind {env : Env} {call : String} {f : Int64 → Run β}
    (h : (track env call >>= f).exec s = (.ok b, t)) :
    ∃ track, env.aimed? s = some track ∧ (f track).exec s = (.ok b, t) := by
  have hexec := exec_track env call s
  cases htrack : env.aimed? s with
  | some track =>
    rw [htrack] at hexec
    exact ⟨track, rfl, by rwa [exec_bind_ok hexec] at h⟩
  | none =>
    rw [htrack] at hexec
    rw [exec_bind_error hexec] at h
    cases h

end Run

namespace Command

section Emits

variable {env : Env} {s t : State} {values : Values}

theorem emits_createTrack (hid : values.lookup "id" = none)
    (hselected : values.bool "selected" ≠ .ok (some true))
    (h : (createTrack values).exec s = (.ok (), t)) :
    ∃ a, t.actions = s.actions.push a ∧ Emits env s values .track a := by
  obtain ⟨instrument, hinstrument, h⟩ := Run.of_exec_lift_bind h
  obtain ⟨name, hname, h⟩ := Run.of_exec_lift_bind h
  obtain ⟨asked, hasked, h⟩ := Run.of_exec_lift_bind h
  cases hplace : (placeTrack asked).exec s with
  | mk outcome u =>
    cases outcome with
    | error fault =>
      rw [Run.exec_bind_error hplace] at h
      cases h
    | ok index =>
      rw [Run.exec_bind_ok hplace] at h
      cases h
      obtain ⟨hu, -, rfl⟩ := exec_placeTrack_ok hplace
      refine ⟨_, ?_, .create hid hselected hinstrument hname hasked⟩
      rw [hu]
      rfl

theorem emits_runTrack (h : (runTrack env values).exec s = (.ok (), t)) :
    (t.actions = s.actions ∧
        (values.lookup "id" = none → values.bool "selected" = .ok (some true))) ∨
      ∃ a, t.actions = s.actions.push a ∧ Emits env s values .track a := by
  obtain ⟨id, hid, h⟩ := Run.of_exec_lift_bind h
  cases id with
  | some id =>
    simp only at h
    left
    cases hindex : word? (id.toInt - 1) with
    | some index =>
      rw [hindex] at h
      cases h
      refine ⟨rfl, fun hnone => ?_⟩
      rw [typed_int_eq_some hid] at hnone
      cases hnone
    | none =>
      rw [hindex] at h
      cases h
  | none =>
    obtain ⟨selected, hselected, h⟩ := Run.of_exec_lift_bind h
    split at h
    · next htrue =>
      left
      cases htrack : env.selected? with
      | some index =>
        rw [htrack] at h
        cases h
        exact ⟨rfl, fun _ => htrue ▸ hselected⟩
      | none =>
        rw [htrack] at h
        cases h
    · next hfalse =>
      have hnot : values.bool "selected" ≠ .ok (some true) := by
        rw [hselected]
        exact fun heq => hfalse (Except.ok.inj heq)
      exact Or.inr (emits_createTrack (typed_int_eq_none hid) hnot h)

theorem emits_runNewClip (h : (runNewClip env values).exec s = (.ok (), t)) :
    ∃ a, t.actions = s.actions.push a ∧ Emits env s values .newClip a := by
  obtain ⟨track, htrack, h⟩ := Run.of_exec_track_bind h
  obtain ⟨bar, hbar, h⟩ := Run.of_exec_lift_bind h
  cases bar with
  | some bar =>
    obtain ⟨length, hlength, h⟩ := Run.of_exec_lift_bind h
    cases h
    exact ⟨_, rfl, .clipAtBar htrack hbar hlength⟩
  | none =>
    have hclip {position : Float} (hrest : (liftM (values.number "length") >>= fun length =>
        Run.emit .createClip [("track", .int track), ("position", .float position),
          ("length", .float (length.getD env.config.clipLength))]).exec s = (.ok (), t)) :
        ∃ a, t.actions = s.actions.push a ∧ Emits env s values .newClip a := by
      obtain ⟨length, hlength, hrest⟩ := Run.of_exec_lift_bind hrest
      cases hrest
      exact ⟨_, rfl, .clip htrack (typed_int_eq_none hbar) hlength⟩
    -- where the position comes from does not matter
    obtain ⟨start, -, h⟩ := Run.of_exec_lift_bind h
    cases start with
    | some x => exact hclip h
    | none =>
      obtain ⟨position, -, h⟩ := Run.of_exec_lift_bind h
      cases position with
      | some x => exact hclip h
      | none => cases h

theorem emits_runAddMidi (h : (runAddMidi env values).exec s = (.ok (), t)) :
    ∃ a, t.actions = s.actions.push a ∧ Emits env s values .addMidi a := by
  obtain ⟨track, htrack, h⟩ := Run.of_exec_track_bind h
  obtain ⟨notes, hnotes, h⟩ := Run.of_exec_lift_bind h
  refine ⟨_, ?_, .midi htrack hnotes⟩
  cases hnote : values.lookup "note" with
  | none =>
    rw [hnote] at h
    cases h
    rfl
  | some note =>
    rw [hnote] at h
    cases h
    rfl

theorem emits_runAddFx (h : (runAddFx env values).exec s = (.ok (), t)) :
    ∃ a, t.actions = s.actions.push a ∧ Emits env s values .addFx a := by
  obtain ⟨track, htrack, h⟩ := Run.of_exec_track_bind h
  obtain ⟨fx, hfx, h⟩ := Run.of_exec_lift_bind h
  cases fx with
  | some fx =>
    cases h
    exact ⟨_, rfl, .fx htrack hfx⟩
  | none =>
    obtain ⟨instrument, hinstrument, h⟩ := Run.of_exec_lift_bind h
    cases instrument with
    | some instrument =>
      cases h
      exact ⟨_, rfl, .instrument htrack (Values.typed_eq_none hfx) hinstrument⟩
    | none => cases h

theorem emits_runSet {p : Property} (h : (runSet env p values).exec s = (.ok (), t)) :
    ∃ a, t.actions = s.actions.push a ∧ Emits env s values (.set p) a := by
  obtain ⟨track, htrack, h⟩ := Run.of_exec_track_bind h
  cases hvalue : propertyValue? p values with
  | none =>
    rw [hvalue] at h
    cases h
  | some found =>
    obtain ⟨parameter, v⟩ := found
    rw [hvalue] at h
    simp only at h
    cases hpayload : p.payload? v with
    | none =>
      rw [hpayload] at h
      cases h
    | some payload =>
      rw [hpayload] at h
      cases h
      exact ⟨_, rfl, .set htrack hvalue hpayload⟩

/-- A command that succeeds emits the action for its values, or aims at a track only. -/
theorem emits_run {c : Command} (h : (c.run env values).exec s = (.ok (), t)) :
    (c = .track ∧ t.actions = s.actions ∧
        (values.lookup "id" = none → values.bool "selected" = .ok (some true))) ∨
      ∃ a, t.actions = s.actions.push a ∧ Emits env s values c a := by
  cases c with
  | track =>
    rcases emits_runTrack h with ⟨hactions, haims⟩ | hemits
    · exact Or.inl ⟨rfl, hactions, haims⟩
    · exact Or.inr hemits
  | newClip => exact Or.inr (emits_runNewClip h)
  | addMidi => exact Or.inr (emits_runAddMidi h)
  | addFx => exact Or.inr (emits_runAddFx h)
  | set p => exact Or.inr (emits_runSet h)

end Emits

/-! ## An item among the values -/

section Fill

variable {env : Env} {s : State} {values : Values} {c : Command} {p : String} {item : Value}
  {a b : Action}

theorem lookup_openParameter (h : c.openParameter? values = some p) : values.lookup p = none := by
  simpa using List.find?_some h

/-- The parameter in front of which all have a value is the open one. -/
theorem ne_of_openParameter {q : String} {v : Value} (h : c.openParameter? values = some p)
    (hq : values.lookup q = some v) : q ≠ p := by
  rintro rfl
  rw [lookup_openParameter h] at hq
  cases hq

/-- Without a value for its first parameter a command has that one open. -/
theorem openParameter_eq_first {q : String} {others : List String}
    (hparameters : c.parameters = q :: others) (hq : values.lookup q = none)
    (h : c.openParameter? values = some p) : p = q := by
  rw [openParameter?, hparameters, List.find?_cons_of_pos (by simp [hq])] at h
  exact (Option.some.inj h).symm

theorem typed_filled {α : Type} {type : ArgumentType} {read : Value → Option α} {q : String}
    (hp : values.lookup p = none) (hq : q ≠ p) :
    Values.typed type read (values ++ [(p, item)]) q = values.typed type read q := by
  simp only [Values.typed, Values.lookup_filled hp, hq, if_false]

/-- An argument is read as before if the item stands for another parameter. -/
theorem eq_of_typed_filled {α : Type} {type : ArgumentType} {read : Value → Option α} {q : String}
    {x y : Option α} (hp : values.lookup p = none) (hq : q ≠ p)
    (h : Values.typed type read values q = .ok x)
    (h' : Values.typed type read (values ++ [(p, item)]) q = .ok y) : y = x := by
  rw [typed_filled hp hq, h] at h'
  exact (Except.ok.inj h').symm

/-- Where only the open parameter says something about a field, no value does. -/
theorem ne_of_only {field other : String} (hopen : c.openParameter? values = some p)
    (hmem : (p, other) ∈ c.determines) (honly : ∀ q, (q, other) ∈ c.determines → q = p)
    (h : c.Gives values field ∨ (p, field) ∉ c.determines) : field ≠ other := by
  rintro rfl
  rcases h with ⟨q, v, hq, hv⟩ | h
  · exact ne_of_openParameter hopen hv (honly q hq)
  · exact h hmem

theorem filter_textField (name field : String) (text : Option String) :
    (textField name text).filter (fun entry => entry.1 = field) =
      if name = field then textField name text else [] := by
  cases text with
  | none => simp [textField]
  | some x =>
    by_cases h : name = field
    · simp [textField, h]
    · simp [textField, h]

/-- The action of the values with the item is of the kind of that of the values alone, and has the
same fields, but for those that only the item says something about. -/
def Agrees (c : Command) (values : Values) (p : String) (a b : Action) : Prop :=
  b.kind = a.kind ∧ ∀ field, c.Gives values field ∨ (p, field) ∉ c.determines →
    b.field? field = a.field? field

theorem Agrees.refl (c : Command) (values : Values) (p : String) (a : Action) :
    Agrees c values p a a := ⟨rfl, fun _ _ => rfl⟩

theorem openParameter_of_create (hopen : Command.track.openParameter? values = some p)
    (hid : values.lookup "id" = none) (hp : p ≠ "id") :
    p = "instrument" ∨ p = "name" ∨ p = "index" := by
  cases hinstrument : values.lookup "instrument" with
  | none => exact Or.inl (by simpa [openParameter?, parameters, hinstrument] using hopen.symm)
  | some _ =>
    cases hname : values.lookup "name" with
    | none =>
      exact Or.inr (Or.inl (by
        simpa [openParameter?, parameters, hinstrument, hname] using hopen.symm))
    | some _ =>
      cases hindex : values.lookup "index" with
      | none =>
        exact Or.inr (Or.inr (by
          simpa [openParameter?, parameters, hinstrument, hname, hindex] using hopen.symm))
      | some _ =>
        simp [openParameter?, parameters, hinstrument, hname, hindex, hid] at hopen
        exact absurd hopen.symm hp

/-- Values for which a track is created do not aim at one with an item for another parameter than
the overruling one. -/
theorem Emits.not_aims (hopen : Command.track.openParameter? values = some p) (hp : p ≠ "id")
    (ha : Emits env s values .track a) :
    ¬ ((values ++ [(p, item)]).lookup "id" = none →
      (values ++ [(p, item)]).bool "selected" = .ok (some true)) := by
  have hnone := lookup_openParameter hopen
  cases ha with
  | create hid hselected _ _ _ =>
    intro haims
    have hne : "selected" ≠ p := by
      rcases openParameter_of_create hopen hid hp with rfl | rfl | rfl <;> decide
    have hsame : (values ++ [(p, item)]).bool "selected" = values.bool "selected" :=
      typed_filled hnone hne
    rw [Values.lookup_filled hnone, if_neg hp.symm] at haims
    exact hselected (hsame ▸ haims hid)

theorem agrees_track (hopen : Command.track.openParameter? values = some p) (hp : p ≠ "id")
    (ha : Emits env s values .track a) (hb : Emits env s (values ++ [(p, item)]) .track b) :
    Agrees .track values p a b := by
  have hnone := lookup_openParameter hopen
  cases ha with
  | @create instrument name asked hid _ hinstrument hname hasked =>
    cases hb with
    | @create instrument' name' asked' _ _ hinstrument' hname' hasked' =>
      have hsame (hq : "instrument" ≠ p) : instrument' = instrument :=
        eq_of_typed_filled hnone hq hinstrument hinstrument'
      have hsameName (hq : "name" ≠ p) : name' = name :=
        eq_of_typed_filled hnone hq hname hname'
      have hsameIndex (hq : "index" ≠ p) : asked' = asked :=
        eq_of_typed_filled hnone hq hasked hasked'
      refine ⟨rfl, fun field hfield => Fields.find?_ofList_congr ?_⟩
      -- each parameter of a new track is the only one for its field
      have hne : field ≠ p := by
        rcases openParameter_of_create hopen hid hp with rfl | rfl | rfl
        all_goals exact ne_of_only hopen (by simp [determines]) (by simp [determines]) hfield
      rcases openParameter_of_create hopen hid hp with rfl | rfl | rfl
      · rw [hsameName (by decide), hsameIndex (by decide)]
        simp [filter_textField, hne.symm]
      · rw [hsame (by decide), hsameIndex (by decide)]
        simp [filter_textField, hne.symm]
      · rw [hsame (by decide), hsameName (by decide)]
        simp [filter_textField, hne.symm]

theorem agrees_newClip (hopen : Command.newClip.openParameter? values = some p) (hp : p ≠ "bar")
    (ha : Emits env s values .newClip a) (hb : Emits env s (values ++ [(p, item)]) .newClip b) :
    Agrees .newClip values p a b := by
  have hnone := lookup_openParameter hopen
  cases ha with
  | @clip track position length _ hbar _ =>
    -- without a bar the item stands for it
    exact absurd (openParameter_eq_first rfl hbar hopen) hp
  | @clipAtBar track bar length htrack hbar hlength =>
    cases hb with
    | @clip track' position' length' _ hbar' _ =>
      rw [Values.lookup_filled hnone, if_neg hp.symm, typed_int_eq_some hbar] at hbar'
      cases hbar'
    | @clipAtBar track' bar' length' htrack' hbar' hlength' =>
      cases eq_of_typed_filled hnone hp.symm hbar hbar'
      cases htrack.symm.trans htrack'
      by_cases hp' : p = "length_bars"
      · subst hp'
        refine ⟨rfl, fun field hfield => Fields.find?_ofList_congr ?_⟩
        have hne : field ≠ "length_bars" :=
          ne_of_only hopen (by simp [determines]) (by simp [determines]) hfield
        simp [List.filter_cons, hne.symm]
      · cases eq_of_typed_filled hnone (Ne.symm hp') hlength hlength'
        exact .refl _ _ _ _

theorem agrees_addMidi (hopen : Command.addMidi.openParameter? values = some p) (hp : p ≠ "note")
    (ha : Emits env s values .addMidi a) (hb : Emits env s (values ++ [(p, item)]) .addMidi b) :
    Agrees .addMidi values p a b := by
  have hnone := lookup_openParameter hopen
  cases ha with
  | @midi track notes htrack hnotes =>
    cases hb with
    | @midi track' notes' htrack' hnotes' =>
      cases htrack.symm.trans htrack'
      rw [Values.lookup_filled hnone, if_neg hp.symm]
      cases hnote : values.lookup "note" with
      | some note => exact .refl _ _ _ _
      | none =>
        -- without a note and notes nothing is said about the field
        refine ⟨rfl, fun field hfield => Fields.find?_ofList_congr ?_⟩
        have hpnotes : p = "notes" := by
          have hmem : p ∈ Command.addMidi.parameters := List.mem_of_find?_eq_some hopen
          simpa [parameters, hp] using hmem
        subst hpnotes
        have hne : field ≠ "notes" := by
          rintro rfl
          rcases hfield with ⟨q, v, hq, hv⟩ | hfield
          · simp only [determines, List.mem_cons, Prod.mk.injEq, and_true, List.not_mem_nil,
              or_false] at hq
            rcases hq with rfl | rfl
            · rw [hnone] at hv
              cases hv
            · rw [hnote] at hv
              cases hv
          · exact hfield (by simp [determines])
        simp [List.filter_cons, hne.symm]

theorem agrees_addFx (hopen : Command.addFx.openParameter? values = some p) (hp : p ≠ "fxname")
    (ha : Emits env s values .addFx a) (hb : Emits env s (values ++ [(p, item)]) .addFx b) :
    Agrees .addFx values p a b := by
  have hnone := lookup_openParameter hopen
  cases ha with
  | @instrument track instrument _ hfx _ =>
    -- without an effect the item stands for it
    exact absurd (openParameter_eq_first rfl hfx hopen) hp
  | @fx track fx htrack hfx =>
    cases hb with
    | @instrument track' instrument' _ hfx' _ =>
      obtain ⟨v, hv, -⟩ := Values.typed_eq_some hfx
      rw [Values.lookup_filled hnone, if_neg hp.symm, hv] at hfx'
      cases hfx'
    | @fx track' fx' htrack' hfx' =>
      cases eq_of_typed_filled hnone hp.symm hfx hfx'
      cases htrack.symm.trans htrack'
      exact .refl _ _ _ _

theorem agrees_set {q : Property} (hopen : (Command.set q).openParameter? values = some p)
    (hp : p ≠ q.field) (ha : Emits env s values (.set q) a)
    (hb : Emits env s (values ++ [(p, item)]) (.set q) b) : Agrees (.set q) values p a b := by
  have hnone := lookup_openParameter hopen
  cases hgiven : values.lookup q.field with
  | none =>
    -- without its own parameter the item stands for it
    exact absurd (openParameter_eq_first rfl hgiven hopen) hp
  | some v =>
    cases ha with
    | @set _ track parameter u payload htrack hvalue hpayload =>
      cases hb with
      | @set _ track' parameter' u' payload' htrack' hvalue' hpayload' =>
        cases htrack.symm.trans htrack'
        rw [propertyValue?, hgiven] at hvalue
        rw [propertyValue?, Values.lookup_filled hnone, if_neg hp.symm, hgiven] at hvalue'
        cases hvalue
        cases hvalue'
        cases hpayload.symm.trans hpayload'
        exact .refl _ _ _ _

/-- An item that does not stand for the overruling parameter leaves what the values say. -/
theorem Emits.agrees (hopen : c.openParameter? values = some p) (hp : p ≠ c.overruling)
    (ha : Emits env s values c a) (hb : Emits env s (values ++ [(p, item)]) c b) :
    Agrees c values p a b := by
  cases c with
  | track => exact agrees_track hopen hp ha hb
  | newClip => exact agrees_newClip hopen hp ha hb
  | addMidi => exact agrees_addMidi hopen hp ha hb
  | addFx => exact agrees_addFx hopen hp ha hb
  | set q => exact agrees_set hopen hp ha hb

theorem field?_second (kind : ActionKind) (first : String × Value) (field : String) (v : Value) :
    (Action.of kind [first, (field, v)]).field? field = some v := by
  change Fields.find? field (Fields.insert field v _) = some v
  rw [Fields.find?_insert, if_pos rfl]

/-- An item that stands for the overruling parameter decides about the action: it is of another
kind, or has a field that a value says something about from the item. -/
theorem Emits.overruled (hopen : c.openParameter? values = some c.overruling)
    (ha : Emits env s values c a) (hb : Emits env s (values ++ [(c.overruling, item)]) c b)
    (hkind : b.kind = a.kind) :
    ∃ field v, c.Gives values field ∧ c.fieldOfItem? item = some v ∧ b.field? field = some v := by
  have hnone := lookup_openParameter hopen
  have hitem : (values ++ [(c.overruling, item)]).lookup c.overruling = some item := by
    rw [Values.lookup_filled hnone, if_pos rfl]
  cases hb with
  | create hid => exact absurd (hid.symm.trans hitem) nofun
  | clip _ hbar => exact absurd (hbar.symm.trans hitem) nofun
  | instrument _ hfx => exact absurd (hfx.symm.trans hitem) nofun
  | clipAtBar =>
    cases ha with
    | clip => cases hkind
    | clipAtBar _ hbar => exact absurd (hnone.symm.trans (typed_int_eq_some hbar)) nofun
  | fx =>
    cases ha with
    | instrument => cases hkind
    | fx _ hfx =>
      obtain ⟨v, hv, -⟩ := Values.typed_eq_some hfx
      exact absurd (hnone.symm.trans hv) nofun
  | @midi track notes _ _ =>
    -- the notes have a value, since the note comes after them
    cases hnotes : values.lookup "notes" with
    | none => exact absurd (openParameter_eq_first rfl hnotes hopen) (by decide)
    | some v =>
      refine ⟨"notes", .list [item], ⟨"notes", v, by simp [determines], hnotes⟩, rfl, ?_⟩
      rw [show (values ++ [(addMidi.overruling, item)]).lookup "note" = some item from hitem]
      exact field?_second _ _ _ _
  | @set q track parameter v payload _ hvalue hpayload =>
    have hfound : propertyValue? q (values ++ [((Command.set q).overruling, item)]) =
        some (q.field, item) := by
      rw [propertyValue?,
        show (values ++ [((Command.set q).overruling, item)]).lookup q.field = some item from hitem]
    rw [hfound] at hvalue
    cases hvalue
    cases ha with
    | @set _ track' parameter' v' payload' _ hvalue' _ =>
      have hnofield : values.lookup q.field = none := hnone
      rw [propertyValue?, hnofield] at hvalue'
      obtain ⟨given, hgiven, -⟩ := Option.map_eq_some_iff.1 hvalue'
      exact ⟨q.field, payload, ⟨"value", given, by simp [determines], hgiven⟩, hpayload,
        field?_second _ _ _ _⟩

end Fill

end Command

/-! ## Callbacks with explicit arguments -/

/-- A command runs on an item that is no track as it runs on the values with the item among them. -/
theorem exec_runCommandOnItem_of_item {env : Env} {c : Command} {arguments : List (Arg Expr)}
    (hliteral : AllLiteral arguments) {values : Values}
    (hvalues : c.literalValues arguments = .ok values) {item : Value}
    (hitem : item.trackIndex? = none) {name : String} {s u : State} {w : Value}
    (h : (runCommandOnItem env c (meanings env arguments) ⟨name, item⟩).exec s = (.ok w, u)) :
    (c.run env (c.fillIn values item)).exec s = (.ok (), u) := by
  have hnone : (item.field? "index").bind Value.int? = none := hitem
  unfold runCommandOnItem Command.runOnItem at h
  rw [commandValues_of_literals env _ c hliteral, hvalues, Run.lift_ok_bind] at h
  simp only [hnone] at h
  cases hrun : (c.run env (c.fillIn values item)).exec s with
  | mk outcome t =>
    cases outcome with
    | error fault =>
      rw [Run.exec_bind_error hrun] at h
      cases h
    | ok done =>
      rw [Run.exec_bind_ok hrun] at h
      cases h
      rfl

/-- An item that is not null stands for the open parameter. -/
theorem fillIn_eq {c : Command} {values : Values} {p : String} {item : Value}
    (hopen : c.openParameter? values = some p) (hnull : item.isNull = false) :
    c.fillIn values item = values ++ [(p, item)] := by
  unfold Command.openParameter? at hopen
  rw [Command.fillIn, hopen]
  simp [hnull]

theorem emits_of_push {env : Env} {c : Command} {values : Values} {s t : State} {a : Action}
    (hrun : (c.run env values).exec s = (.ok (), t)) (h : t.actions = s.actions.push a) :
    Command.Emits env s values c a := by
  rcases Command.emits_run hrun with ⟨-, hactions, -⟩ | ⟨b, hactions, hemits⟩
  · rw [hactions] at h
    exact absurd (congrArg Array.size h) (by simp)
  · rw [hactions] at h
    cases (Array.push_eq_push.1 h).1
    exact hemits

/-- A call with literal arguments that succeeds runs its command on their values. -/
theorem exec_run_of_call {env : Env} {c : Command} {arguments : List (Arg Expr)}
    (hliteral : AllLiteral arguments) {s t : State} {v : Value}
    (h : (Call.run env ⟨c.name, arguments⟩).exec s = (.ok v, t)) :
    ∃ values, c.literalValues arguments = .ok values ∧ (c.run env values).exec s = (.ok (), t) := by
  rw [run_of_literals env hliteral, Run.exec_within, Run.exec_map] at h
  cases hrun : (c.runWith env arguments).exec s with
  | mk outcome u =>
    rw [hrun] at h
    cases outcome with
    | error fault => cases h
    | ok done =>
      cases h
      exact Run.of_exec_lift_bind hrun

/-- The arguments of a callback and the item that it visits: `values` are the values that literal
arguments give, and the item stands for the first parameter without one. As long as that is not the
parameter that overrules the others, the callback emits an action of the kind that the call by
itself emits, and the two have the same value in every field that an argument says something about,
and in every field that the item does not stand for. If it is the overruling parameter, the
arguments lose: the callback emits no action, or one of another kind, or one with a field from the
item that an argument says something about. -/
theorem callback_keeps_explicit_arguments (env : Env) (c : Command) {arguments : List (Arg Expr)}
    (hliteral : AllLiteral arguments) {item : Value} (hnull : item.isNull = false)
    (hitem : item.trackIndex? = none) {name : String} {s t u : State} {v w : Value} {a : Action}
    (hcall : (Call.run env ⟨c.name, arguments⟩).exec s = (.ok v, t))
    (hemits : t.actions = s.actions.push a)
    (hcallback : (runCommandOnItem env c (meanings env arguments) ⟨name, item⟩).exec s =
      (.ok w, u)) :
    ∃ values, c.literalValues arguments = .ok values ∧
      (c.openParameter? values ≠ some c.overruling → ∃ b, u.actions = s.actions.push b ∧
        b.kind = a.kind ∧ ∀ field, c.Gives values field ∨
            (∀ p, c.openParameter? values = some p → (p, field) ∉ c.determines) →
          b.field? field = a.field? field) ∧
      (c.openParameter? values = some c.overruling → ∀ b, u.actions = s.actions.push b →
        b.kind = a.kind → ∃ field x, c.Gives values field ∧ c.fieldOfItem? item = some x ∧
          b.field? field = some x) := by
  obtain ⟨values, hvalues, hrun⟩ := exec_run_of_call hliteral hcall
  have hrun' := exec_runCommandOnItem_of_item hliteral hvalues hitem hcallback
  have hemitted := emits_of_push hrun hemits
  refine ⟨values, hvalues, ?_⟩
  cases hopen : c.openParameter? values with
  | none =>
    -- with a value for every parameter the item is not looked at
    have hfill : c.fillIn values item = values := by
      unfold Command.openParameter? at hopen
      rw [Command.fillIn, hopen]
    rw [hfill, hrun] at hrun'
    cases hrun'
    exact ⟨fun _ => ⟨a, hemits, rfl, fun _ _ => rfl⟩, nofun⟩
  | some p =>
    rw [fillIn_eq hopen hnull] at hrun'
    refine ⟨fun hp => ?_, fun hp b hb hkind => ?_⟩
    · have hne : p ≠ c.overruling := fun heq => hp (congrArg some heq)
      rcases Command.emits_run hrun' with ⟨rfl, -, haims⟩ | ⟨b, hactions, hb⟩
      · exact absurd haims (hemitted.not_aims hopen hne)
      · obtain ⟨hkind, hfields⟩ := hemitted.agrees hopen hne hb
        refine ⟨b, hactions, hkind, fun field hfield => hfields field ?_⟩
        exact hfield.imp id fun h => h p rfl
    · cases hp
      exact hemitted.overruled hopen (emits_of_push hrun' hb) hkind

/-- A text is the instrument of the new track whose name is given: the name is kept. -/
theorem track_keeps_name :
    ∃ u b, (runCommandOnItem ⟨none, {}⟩ .track
        (meanings ⟨none, {}⟩ [⟨some "name", .literal (.string "Lead")⟩])
        ⟨"item", .string "Serum"⟩).exec (State.fresh #[]) = (.ok .null, u) ∧
      u.actions = #[b] ∧ b.kind = .createTrack ∧ b.field? "name" = some (.string "Lead") := by
  have hliteral : AllLiteral [⟨some "name", .literal (.string "Lead")⟩] := by
    intro a ha
    cases List.mem_singleton.1 ha
    exact ⟨_, rfl⟩
  have hnull : (Value.string "Serum").isNull = false := rfl
  have hitem : (Value.string "Serum").trackIndex? = none := rfl
  obtain ⟨t, hcall, hemits⟩ : ∃ t,
      (Call.run ⟨none, {}⟩ ⟨Command.track.name, [⟨some "name", .literal (.string "Lead")⟩]⟩).exec
        (State.fresh #[]) = (.ok .null, t) ∧
      t.actions = (State.fresh #[]).actions.push
        (.of .createTrack [("name", .string "Lead"), ("index", .int 0)]) := ⟨_, rfl, rfl⟩
  obtain ⟨u, hcallback⟩ : ∃ u, (runCommandOnItem ⟨none, {}⟩ .track
      (meanings ⟨none, {}⟩ [⟨some "name", .literal (.string "Lead")⟩])
      ⟨"item", .string "Serum"⟩).exec (State.fresh #[]) = (.ok .null, u) := ⟨_, rfl⟩
  obtain ⟨values, hvalues, hkept, -⟩ := callback_keeps_explicit_arguments ⟨none, {}⟩ .track hliteral
    hnull hitem hcall hemits hcallback
  cases hvalues
  obtain ⟨b, hactions, hkind, hfields⟩ := hkept (by decide)
  refine ⟨u, b, hcallback, hactions, hkind, ?_⟩
  rw [hfields "name" (Or.inl ⟨"name", .string "Lead", by decide, rfl⟩)]
  rfl

/-- A call adds the instrument that it names, but as a callback with the same argument it adds the
text that it visits as an effect. -/
theorem item_overrules_instrument :
    let env : Env := ⟨none, {}⟩
    let arguments : List (Arg Expr) := [⟨some "instrument", .literal (.string "Serum")⟩]
    let s : State := { State.fresh #[] with target := 0 }
    ∃ t u, (Call.run env ⟨"add_fx", arguments⟩).exec s = (.ok .null, t) ∧
      t.actions = #[.of .addInstrument [("track", .int 0), ("fxname", .string "Serum")]] ∧
      (runCommandOnItem env .addFx (meanings env arguments) ⟨"item", .string "ReaEQ"⟩).exec s =
        (.ok .null, u) ∧
      u.actions = #[.of .addTrackFx [("track", .int 0), ("fxname", .string "ReaEQ")]] :=
  ⟨_, _, rfl, rfl, rfl, rfl⟩

end DawScript
