import DawScript.Proofs.Attribution
import DawScript.Proofs.Invariant

/-!
# Payloads and their tracks

What the actions of a run look like: the payload of each has exactly the fields of its kind
(`Action.WellFormed`), a new track has an index that leaves room for a next one, and every other
action is aimed at the bound track or at the first selected one, whichever there was when its
command began (`emitted_actions_wellFormed`).
-/

set_option autoImplicit false

namespace DawScript

/-! ## Fields of kinds -/

namespace ActionKind

/-- The fields that every action of a kind has, with the kinds of their values. -/
def fields : ActionKind → List (String × Value.Kind)
  | .createTrack => [("index", .int)]
  | .createClip => [("track", .int), ("position", .float), ("length", .float)]
  | .createClipAtBar => [("track", .int), ("bar", .int), ("length_bars", .int)]
  | .addMidi => [("track", .int), ("notes", .list)]
  | .addTrackFx | .addInstrument => [("track", .int), ("fxname", .string)]
  | .setTrackVolume => [("track", .int), ("volume_db", .float)]
  | .setTrackPan => [("track", .int), ("pan", .float)]
  | .setTrackMute => [("track", .int), ("mute", .bool)]
  | .setTrackSolo => [("track", .int), ("solo", .bool)]
  | .setTrackName => [("track", .int), ("name", .string)]

/-- The fields that an action of a kind may have besides. -/
def optionalFields : ActionKind → List (String × Value.Kind)
  | .createTrack => [("instrument", .string), ("name", .string)]
  | _ => []

theorem nodup_fields (kind : ActionKind) : (kind.fields.map Prod.fst).Nodup := by
  cases kind <;> decide

theorem ne_action_of_mem {kind : ActionKind} {field : String × Value.Kind}
    (h : field ∈ kind.fields ++ kind.optionalFields) : field.1 ≠ "action" := by
  revert field
  cases kind <;> decide

end ActionKind

namespace Action

/-- The payload has the fields of its kind and no others, each with a value of its kind. -/
structure WellFormed (a : Action) : Prop where
  sorted : Fields.Sorted a.payload
  complete : ∀ field ∈ a.kind.fields, ∃ v, a.field? field.1 = some v ∧ v.kind = field.2
  closed : ∀ entry ∈ a.payload,
    (entry.1, entry.2.kind) ∈ a.kind.fields ++ a.kind.optionalFields

theorem wellFormed_of {kind : ActionKind} {fields : List (String × Value)}
    (hcomplete : ∀ field ∈ kind.fields,
      ∃ v, Fields.find? field.1 (Fields.ofList fields) = some v ∧ v.kind = field.2)
    (hclosed : ∀ entry ∈ fields,
      (entry.1, entry.2.kind) ∈ kind.fields ++ kind.optionalFields) :
    (of kind fields).WellFormed :=
  ⟨Fields.sorted_ofList fields, hcomplete,
    fun entry hentry => hclosed entry (Fields.mem_of_mem_ofList hentry)⟩

section Made

variable {kind : ActionKind} {fields : List (String × Value)}
  (h : kind.fields = fields.map (Prod.map id Value.kind))

include h

theorem field?_of {name : String} {v : Value} (hmem : (name, v) ∈ fields) :
    (of kind fields).field? name = some v := by
  have hnames := kind.nodup_fields
  rw [h, List.map_map] at hnames
  exact Fields.find?_insertAll_of_mem hnames hmem _

/-- An action made of values for exactly the fields of its kind is well formed. -/
theorem wellFormed_of_fields : (of kind fields).WellFormed := by
  refine wellFormed_of ?_ ?_
  · intro field hfield
    rw [h] at hfield
    obtain ⟨entry, hentry, rfl⟩ := List.mem_map.1 hfield
    exact ⟨entry.2, field?_of h hentry, rfl⟩
  · intro entry hentry
    rw [h]
    exact List.mem_append_left _ (List.mem_map_of_mem hentry)

end Made

/-- No payload has a field under the name that the JSON form keeps for the kind. -/
theorem WellFormed.ne_action {a : Action} (h : a.WellFormed) :
    ∀ entry ∈ a.payload, entry.1 ≠ "action" := fun entry hentry =>
  ActionKind.ne_action_of_mem (h.closed entry hentry)

theorem WellFormed.field?_action {a : Action} (h : a.WellFormed) : a.field? "action" = none := by
  cases hfield : a.field? "action" with
  | none => rfl
  | some v => exact absurd rfl (h.ne_action _ (Fields.mem_of_find? hfield))

/-- The names of fields are the same in the JSON form. -/
theorem fst_fieldsToJson (fields : List (String × Value)) :
    (Value.fieldsToJson fields).map Prod.fst = fields.map Prod.fst := by
  induction fields with
  | nil => rfl
  | cons field rest ih =>
    simp only [Value.fieldsToJson, List.map_cons]
    rw [ih]

/-- The JSON form of a well-formed action names its kind. -/
theorem WellFormed.toJson_action {a : Action} (h : a.WellFormed) :
    ∃ members, a.toJson = .object members ∧
      Fields.find? "action" members = some (.string a.kind.name) := by
  refine ⟨_, rfl, ?_⟩
  -- the kind stands first, and no field is inserted over it
  rw [Fields.find?_insertAll_of_ne fun entry hentry => ?_]
  · rfl
  · have hname : entry.1 ∈ a.payload.map Prod.fst := by
      rw [← fst_fieldsToJson]
      exact List.mem_map_of_mem hentry
    obtain ⟨field, hfield, heq⟩ := List.mem_map.1 hname
    rw [← heq]
    exact h.ne_action field hfield

end Action

/-! ## Tracks -/

/-- A position is that of the first selected track of the session. -/
def Env.FirstSelected (env : Env) (position : Int64) : Prop :=
  ∃ session track, env.session = some session ∧ 0 ≤ position ∧
    session.tracks[position.toInt.toNat]? = some track ∧ track.selected = true ∧
    ∀ (j : Nat) (other : Track), j < position.toInt.toNat → session.tracks[j]? = some other →
      other.selected = false

theorem Env.selected?_eq_some_iff {env : Env} {position : Int64} :
    env.selected? = some position ↔ env.FirstSelected position := by
  simp only [Env.selected?, Option.bind_eq_some_iff, word?_eq_some_iff, Session.selected?,
    List.findIdx?_eq_some_iff_getElem]
  constructor
  · rintro ⟨found, ⟨session, hsession, hlt, hselected, hbefore⟩, hfound⟩
    -- the first selected track, whose position is a word
    have hnat : position.toInt.toNat = found := by omega
    refine ⟨session, session.tracks[found], hsession, ?_, ?_, hselected, ?_⟩
    · rw [Int64.le_iff_toInt_le, hfound]
      exact Int.natCast_nonneg found
    · rw [hnat, List.getElem?_eq_getElem hlt]
    · intro j other hj hother
      rw [hnat] at hj
      rw [List.getElem?_eq_getElem (Nat.lt_trans hj hlt)] at hother
      cases hother
      simpa using hbefore j hj
  · rintro ⟨session, track, hsession, hnonneg, htrack, hselected, hbefore⟩
    obtain ⟨hlt, rfl⟩ := List.getElem?_eq_some_iff.1 htrack
    refine ⟨position.toInt.toNat, ⟨session, hsession, hlt, hselected, ?_⟩, ?_⟩
    · intro j hj
      simpa using hbefore j _ hj (List.getElem?_eq_getElem (Nat.lt_trans hj hlt))
    · exact (Int.toNat_of_nonneg (Int64.le_iff_toInt_le.1 hnonneg)).symm

/-- The track that a command goes to is the bound one or the first selected one. -/
theorem Env.aimed?_eq_some {env : Env} {s : State} {track : Int64}
    (h : env.aimed? s = some track) :
    0 ≤ track ∧ (0 ≤ s.target → track = s.target) ∧ (s.target < 0 → env.FirstSelected track) := by
  unfold Env.aimed? State.track? at h
  by_cases hbound : 0 ≤ s.target
  · rw [if_pos hbound, Option.some_or] at h
    cases h
    exact ⟨hbound, fun _ => rfl, fun hneg => absurd hbound (Int64.not_le.2 hneg)⟩
  · rw [if_neg hbound, Option.none_or, Env.selected?_eq_some_iff] at h
    -- positions in the session are not negative
    have hnonneg : 0 ≤ track := by
      obtain ⟨_, _, _, hnonneg, _⟩ := h
      exact hnonneg
    exact ⟨hnonneg, fun hpos => absurd hpos hbound, fun _ => h⟩

theorem Env.aimed?_eq_none_iff {env : Env} {s : State} :
    env.aimed? s = none ↔ s.target < 0 ∧ ∀ position, ¬ env.FirstSelected position := by
  simp only [← Env.selected?_eq_some_iff, ← Option.eq_none_iff_forall_ne_some, Env.aimed?,
    Option.or_eq_none_iff, State.track?, ite_eq_right_iff, reduceCtorEq, imp_false, Int64.not_le]

namespace Action

/-- The action creates a track at an index that leaves room for a next one. -/
def Places (a : Action) : Prop :=
  ∃ index, a.field? "index" = some (.int index) ∧ 0 ≤ index ∧ index < Int64.maxValue

/-- The action is aimed at the track bound in a state, or at the first selected one if none is
bound. -/
def Aims (env : Env) (s : State) (a : Action) : Prop :=
  ∃ track, a.field? "track" = some (.int track) ∧ 0 ≤ track ∧
    (0 ≤ s.target → track = s.target) ∧ (s.target < 0 → env.FirstSelected track)

end Action

/-! ## Effects of commands -/

/-- No counter of a run is negative. -/
theorem counter_invariant (env : Env) : StateInvariant env fun s => 0 ≤ s.counter where
  aimed _ h := h
  stored _ _ h := h
  skipped _ h := h
  commanded {s t c} h hdoes := by
    cases hdoes with
    | create instrument name index next hindex hnext =>
      have hnonneg : 0 ≤ index := by
        rcases hindex with hindex | rfl
        · exact hindex
        · exact h
      -- the next counter is a word, so counting on did not wrap around
      have hcount := word?_eq_some_iff.1 hnext
      rw [Int64.le_iff_toInt_le] at hnonneg
      apply Int64.le_iff_toInt_le.2
      change (0 : Int64).toInt ≤ next.toInt
      omega
    | _ => exact h

/-- What is right about an action that a command emits in a state. -/
structure Action.Fits (env : Env) (s : State) (a : Action) : Prop where
  wellFormed : a.WellFormed
  places : a.kind = .createTrack → a.Places
  aims : a.kind ≠ .createTrack → a.Aims env s

/-- An action with values for the fields of its kind, the first of them the track of its command,
fits. -/
theorem Action.fits_of_aimed {env : Env} {s : State} {track : Int64} {kind : ActionKind}
    {more : List (String × Value)} (h : env.aimed? s = some track) (hkind : kind ≠ .createTrack)
    (hfields : kind.fields = ("track", .int) :: more.map (Prod.map id Value.kind)) :
    (of kind (("track", .int track) :: more)).Fits env s :=
  ⟨wellFormed_of_fields hfields, fun h => absurd h hkind, fun _ =>
    ⟨track, field?_of hfields List.mem_cons_self, Env.aimed?_eq_some h⟩⟩

/-- The kind of action that sets a property has the track and the property as its fields. -/
theorem Property.fields_actionKind (p : Property) {payload : Value} (h : p.Admits payload) :
    p.actionKind.fields = [("track", .int), (p.field, payload.kind)] := by
  cases p <;> obtain ⟨x, rfl⟩ := h <;> rfl

/-- The action that creates a track has its index, whatever texts come with it. -/
theorem Command.field?_index_createTrack (instrument name : Option String) (index : Int64) :
    (Action.of .createTrack (textField "instrument" instrument ++ textField "name" name ++
      [("index", .int index)])).field? "index" = some (.int index) := by
  -- the index stands last, and no text has its name
  refine Fields.find?_insertAll_of_mem ?_ (List.mem_append_right _ List.mem_cons_self) _
  cases instrument <;> cases name <;> simp [textField]

theorem Action.fits_create {env : Env} {s : State} (instrument name : Option String)
    {index next : Int64} (hnonneg : 0 ≤ index) (hnext : word? (index.toInt + 1) = some next) :
    (of .createTrack (Command.textField "instrument" instrument ++
      Command.textField "name" name ++ [("index", .int index)])).Fits env s := by
  have hindex := Command.field?_index_createTrack instrument name index
  refine ⟨wellFormed_of ?_ ?_, fun _ => ⟨index, hindex, hnonneg, ?_⟩, fun h => absurd rfl h⟩
  · intro field hfield
    cases List.mem_singleton.1 hfield
    exact ⟨_, hindex, rfl⟩
  · cases instrument <;> cases name <;>
      simp [Command.textField, ActionKind.fields, ActionKind.optionalFields, Value.kind]
  · -- the next counter is a word above the index
    have hcount := word?_eq_some_iff.1 hnext
    have hbound := next.toInt_lt
    rw [Int64.lt_iff_toInt_lt, Int64.toInt_maxValue]
    omega

/-- The action that a command emits fits the state in which the command began. -/
theorem Command.Does.fits {env : Env} {s t : State} {c : Command} {a : Action}
    (hdoes : Does env s c t) (hcounter : 0 ≤ s.counter) (ht : t.actions = s.actions.push a) :
    a.Fits env s := by
  have hpushed {b : Action} (hb : s.actions.push b = s.actions.push a) : b = a :=
    (Array.push_eq_push.1 hb).1
  cases hdoes with
  | aim track =>
    -- aiming emits nothing, so there is no action to speak of
    have hsize := congrArg Array.size ht
    rw [Array.size_push] at hsize
    exact absurd hsize (Nat.succ_ne_self _).symm
  | create instrument name index next hindex hnext =>
    rw [← hpushed ht]
    have hnonneg : 0 ≤ index := by
      rcases hindex with hindex | rfl
      · exact hindex
      · exact hcounter
    exact Action.fits_create instrument name hnonneg hnext
  | clipAtBar track bar length htrack =>
    rw [← hpushed ht]
    exact Action.fits_of_aimed htrack (by decide) rfl
  | clip track position length htrack =>
    rw [← hpushed ht]
    exact Action.fits_of_aimed htrack (by decide) rfl
  | midi track notes htrack =>
    rw [← hpushed ht]
    exact Action.fits_of_aimed htrack (by decide) rfl
  | fx track effect htrack =>
    rw [← hpushed ht]
    exact Action.fits_of_aimed htrack (by decide) rfl
  | instrument track instrument htrack =>
    rw [← hpushed ht]
    exact Action.fits_of_aimed htrack (by decide) rfl
  | set p track payload htrack hadmits =>
    rw [← hpushed ht]
    refine Action.fits_of_aimed htrack ?_ (p.fields_actionKind hadmits)
    cases p <;> decide

/-! ## Commands without a track -/

namespace Run

/-- A step never fails for want of a track. -/
def NeedsNoTrack (x : Run Unit) : Prop :=
  ∀ s call, (x.exec s).1 ≠ .error (.noTrackContext call)

theorem needsNoTrack_throw {fault : Fault} (h : ∀ call, fault ≠ .noTrackContext call) :
    NeedsNoTrack (throw fault) := fun _ call heq => h call (Except.error.inj heq)

theorem needsNoTrack_emit (kind : ActionKind) (fields : List (String × Value)) :
    NeedsNoTrack (emit kind fields) := fun _ _ heq => nomatch heq

/-- Reading an argument fails only for its type. -/
theorem needsNoTrack_typed_bind {α : Type} {type : ArgumentType} {read : Value → Option α}
    {values : Values} {parameter : String} {f : Option α → Run Unit}
    (h : ∀ a, NeedsNoTrack (f a)) :
    NeedsNoTrack (liftM (values.typed type read parameter) >>= f) := by
  unfold Values.typed
  cases values.lookup parameter with
  | none => exact h none
  | some v =>
    simp only
    cases read v with
    | some x => exact h (some x)
    | none =>
      rw [lift_error_bind]
      exact needsNoTrack_throw nofun

theorem exec_track_bind_iff {env : Env} {call : String} {f : Int64 → Run Unit}
    (h : ∀ track, NeedsNoTrack (f track)) (s : State) :
    ((track env call >>= f).exec s).1 = .error (.noTrackContext call) ↔ env.aimed? s = none := by
  have hexec := exec_track env call s
  cases htrack : env.aimed? s with
  | some found =>
    rw [htrack] at hexec
    rw [exec_bind_ok hexec]
    exact iff_of_false (h found s call) nofun
  | none =>
    rw [htrack] at hexec
    rw [exec_bind_error hexec]
    exact iff_of_true rfl rfl

end Run

/-- A command for a track fails for want of one exactly if none is bound and none is selected. -/
theorem Command.exec_run_noTrackContext_iff {env : Env} {c : Command} (hc : c ≠ .track)
    (values : Values) (s : State) :
    ((c.run env values).exec s).1 = .error (.noTrackContext c.name) ↔ env.aimed? s = none := by
  cases c with
  | track => exact absurd rfl hc
  | newClip =>
    refine Run.exec_track_bind_iff ?_ s
    intro track
    apply Run.needsNoTrack_typed_bind
    intro bar
    cases bar with
    | some bar => exact Run.needsNoTrack_typed_bind fun _ => Run.needsNoTrack_emit _ _
    | none =>
      apply Run.needsNoTrack_typed_bind
      intro start
      cases start with
      | some x => exact Run.needsNoTrack_typed_bind fun _ => Run.needsNoTrack_emit _ _
      | none =>
        apply Run.needsNoTrack_typed_bind
        intro position
        cases position with
        | some x => exact Run.needsNoTrack_typed_bind fun _ => Run.needsNoTrack_emit _ _
        | none => exact Run.needsNoTrack_throw nofun
  | addMidi =>
    refine Run.exec_track_bind_iff ?_ s
    intro track
    exact Run.needsNoTrack_typed_bind fun _ => Run.needsNoTrack_emit _ _
  | addFx =>
    refine Run.exec_track_bind_iff ?_ s
    intro track
    apply Run.needsNoTrack_typed_bind
    intro fx
    cases fx with
    | some fx => exact Run.needsNoTrack_emit _ _
    | none =>
      apply Run.needsNoTrack_typed_bind
      intro instrument
      cases instrument with
      | some instrument => exact Run.needsNoTrack_emit _ _
      | none => exact Run.needsNoTrack_throw nofun
  | set p =>
    refine Run.exec_track_bind_iff ?_ s
    intro track
    cases propertyValue? p values with
    | none => exact Run.needsNoTrack_throw nofun
    | some found =>
      simp only
      cases p.payload? found.2 with
      | some payload => exact Run.needsNoTrack_emit _ _
      | none => exact Run.needsNoTrack_throw nofun

/-! ## Runs -/

/-- Every action that a run appends was emitted by a command that the run leads to. It has exactly
the fields of its kind, no field that would hide the kind in its JSON form, and the index or the
track that the state in which the command began calls for; and a command for a track fails for want
of one exactly if none is bound and none is selected. -/
theorem emitted_actions_wellFormed (env : Env) (calls : List Call) (actions : Array Action) :
    (∀ i a, actions.size ≤ i → (interpret env calls actions).2[i]? = some a →
      ∃ c values s t, env.Reaches calls actions (.command c values) s ∧
        (c.run env values).exec s = (.ok (), t) ∧ s.actions.size = i ∧
        t.actions = s.actions.push a ∧ a.WellFormed ∧ (a.kind = .createTrack → a.Places) ∧
        (a.kind ≠ .createTrack → a.Aims env s) ∧ a.field? "action" = none ∧
        ∃ members, a.toJson = .object members ∧
          Fields.find? "action" members = some (.string a.kind.name)) ∧
    ∀ (c : Command) (values : Values) (s : State), c ≠ .track →
      (((c.run env values).exec s).1 = .error (.noTrackContext c.name) ↔
        s.target < 0 ∧ ∀ position, ¬ env.FirstSelected position) := by
  constructor
  · intro i a hi ha
    rw [interpret_actions, Env.final] at ha
    -- the command that emitted the action, and what its effect was
    have haccounts := runCalls_accounts env calls (env.initial actions)
    rw [← initial_actions env actions] at hi
    obtain ⟨c, values, s, t, hreach, hrun, hsize, hpush⟩ := haccounts.emitted i a hi ha
    have hcounter : 0 ≤ s.counter := by
      refine (counter_invariant env).of_reaches ?_ hreach
      unfold Env.initial
      split <;> exact Int64.le_refl 0
    have hfits : a.Fits env s := by
      rcases Command.exec_run env s values c with ⟨fault, hfail⟩ | ⟨u, hok, hdoes⟩
      · rw [hfail] at hrun
        cases hrun
      · rw [hok] at hrun
        cases hrun
        exact hdoes.fits hcounter hpush
    exact ⟨c, values, s, t, hreach, hrun, hsize, hpush, hfits.wellFormed, hfits.places, hfits.aims,
      hfits.wellFormed.field?_action, hfits.wellFormed.toJson_action⟩
  · intro c values s hc
    rw [Command.exec_run_noTrackContext_iff hc, Env.aimed?_eq_none_iff]

end DawScript
