import DawScript.Proofs.Queries
import DawScript.Proofs.SessionRoundTrip
import DawScript.Proofs.ShortestDecimal

/-!
# Parts of tracks

A script reads the effects or the clips of a track in one of three ways: with a query for a
position, along a path from `tracks`, or along a path from `state`. As long as these two names stand
for what they stand for at the beginning of a run (`NamesKept`), all three give the same list, with
all that the session says about its items; where there is no track, the query gives the empty list
and the paths are refused (`track_parts_agree`).
-/

set_option autoImplicit false

namespace DawScript

/-! ## Parts -/

/-- The lists that a track holds. -/
inductive TrackPart where
  | fx
  | clips
deriving DecidableEq, Repr

namespace TrackPart

/-- The name of the field that holds the list. -/
def name : TrackPart → String
  | .fx => "fx"
  | .clips => "clips"

/-- The query for the list. -/
def query : TrackPart → Combinator
  | .fx => .getFxChain
  | .clips => .getClips

/-- The items of the list as values. -/
def items (part : TrackPart) (t : Track) : List Value :=
  match part with
  | .fx => t.fx.map Effect.toValue
  | .clips => t.clips.map Clip.toValue

/-- What the query returns for a track. -/
def value : TrackPart → Session → Int64 → Value
  | .fx => Session.fxValue
  | .clips => Session.clipsValue

theorem value_eq (part : TrackPart) (session : Session) (index : Int64) :
    part.value session index = .list ((session.track? index).elim [] part.items) := by
  cases part with
  | fx =>
    rw [value, Session.fxValue]
    cases session.track? index <;> rfl
  | clips =>
    rw [value, Session.clipsValue]
    cases session.track? index <;> rfl

/-- No other field of a track hides its lists. -/
theorem field?_toValue {t : Track} (h : Session.TrackKept t) (part : TrackPart) :
    t.toValue.field? part.name = some (.list (part.items t)) := by
  cases part with
  | fx => exact h.field?_fx
  | clips => exact h.field?_clips

end TrackPart

/-! ## Positions -/

namespace Session

variable {session : Session} {index : Int64}

theorem track?_eq_some_iff {t : Track} :
    session.track? index = some t ↔ ∃ p : Nat, index.toInt = p ∧ session.tracks[p]? = some t := by
  unfold track?
  split
  · next hnegative =>
    have hlt : index.toInt < 0 := Int64.lt_iff_toInt_lt.1 hnegative
    refine iff_of_false nofun ?_
    rintro ⟨p, hp, -⟩
    omega
  · next hnonneg =>
    have hle : 0 ≤ index.toInt := Int64.le_iff_toInt_le.1 (Int64.not_lt.1 hnonneg)
    constructor
    · exact fun h => ⟨_, (Int.toNat_of_nonneg hle).symm, h⟩
    · rintro ⟨p, hp, ht⟩
      rwa [hp, Int.toNat_natCast]

/-- There is no track at an integer that is not a position. -/
theorem track?_eq_none (h : ∀ p < session.tracks.length, index.toInt ≠ p) :
    session.track? index = none := by
  rw [Option.eq_none_iff_forall_ne_some]
  intro t ht
  obtain ⟨p, hp, hsome⟩ := track?_eq_some_iff.1 ht
  exact h p (List.getElem?_eq_some_iff.1 hsome).1 hp

end Session

/-! ## Queries -/

section Query

variable {env : Env} {session : Session} {arguments : List (Arg Expr)} {scope : Option Binding}
  {s : State} {index : Int64}

/-- A query that asks about a track goes on with the index of that track. -/
theorem exec_queriedTrack_of_asks {given : List (String × Expr)}
    (hassign : assign ["track_index"] arguments = .ok given)
    (h : AsksAbout env arguments scope s index) :
    ∃ t, (queriedTrack (mapGiven (operand env) given) scope).exec s = (.ok index, t) := by
  rcases assign_trackIndex hassign with ⟨rfl, rfl⟩ | ⟨a, rfl, rfl⟩
  · have htarget : s.target = index := h
    exact ⟨s, by rw [← htarget]; rfl⟩
  · cases hvalue : (evaluate env a.value scope).exec s with
    | mk outcome t =>
      have houtcome : ((evaluate env a.value scope).exec s).1 = .ok (.int index) := h
      rw [hvalue] at houtcome
      cases houtcome
      exact ⟨t, Run.exec_bind_ok hvalue _⟩

/-- A query returns what the session has for the track that it asks about, or the empty list. -/
theorem exec_runListing_of_asks {given : List (String × Expr)}
    (hsession : env.session = some session)
    (hassign : assign ["track_index"] arguments = .ok given)
    (h : AsksAbout env arguments scope s index) (symbol : String)
    (part : Session → Int64 → Value) :
    ((runListing env symbol part (mapGiven (operand env) given) scope).exec s).1 =
      .ok (if (session.track? index).isSome then part session index else .list []) := by
  obtain ⟨t, ht⟩ := exec_queriedTrack_of_asks hassign h
  rw [runListing, Run.exec_bind_ok ht, hsession, Option.filter_some]
  by_cases htrack : (session.track? index).isSome = true
  · rw [if_pos htrack, if_pos htrack]
    rfl
  · rw [if_neg htrack, if_neg htrack]
    rfl

/-- The queries for the parts of tracks are listings of different parts. -/
theorem runCombinator_partQuery (env : Env) (part : TrackPart) (arguments : List (Arg Expr))
    (scope : Option Binding) : ∃ symbol,
    runCombinator env part.query (operands env arguments) scope =
      (liftM (assign ["track_index"] arguments) >>= fun given =>
        runListing env symbol part.value (mapGiven (operand env) given) scope) := by
  cases part with
  | fx =>
    refine ⟨"fx_chain", ?_⟩
    simp only [TrackPart.query, runCombinator, operands_eq_map, assign_map, Run.lift_map_bind]
    rfl
  | clips =>
    refine ⟨"clips", ?_⟩
    simp only [TrackPart.query, runCombinator, operands_eq_map, assign_map, Run.lift_map_bind]
    rfl

/-- A query for a part of a track returns the items of the part, and none where there is no
track. -/
theorem exec_partQuery (hsession : env.session = some session) (part : TrackPart)
    (htaken : (assign ["track_index"] arguments).isOk = true)
    (h : AsksAbout env arguments scope s index) :
    ((evaluate env (.call part.query.name arguments) scope).exec s).1 =
      .ok (.list ((session.track? index).elim [] part.items)) := by
  cases hassign : assign ["track_index"] arguments with
  | error fault =>
    rw [hassign] at htaken
    cases htaken
  | ok given =>
    have hname : Combinator.ofName? part.query.name = some part.query := by
      cases part <;> rfl
    obtain ⟨symbol, hquery⟩ := runCombinator_partQuery env part arguments scope
    have hlisting := exec_runListing_of_asks hsession hassign h symbol part.value
    rw [evaluate, runCall, Run.exec_within, runNamed, hname]
    simp only [hquery, hassign, Run.lift_ok_bind, hlisting, part.value_eq]
    -- where there is no track, the part is empty
    cases session.track? index <;> rfl

end Query

/-! ## Paths -/

/-- The names of the session are not overwritten: the binding goes by another name, and the symbols
with these names are as they were at the beginning of the run. -/
structure NamesKept (env : Env) (scope : Option Binding) (s : State) : Prop where
  binding : ∀ b ∈ scope, b.name ∉ ["tracks", "state"]
  symbols : ∀ name ∈ ["tracks", "state"], s.symbol? name = (env.initial #[]).symbol? name

section Paths

variable {env : Env} {session : Session} {scope : Option Binding} {s : State}

/-- A run begins with the names of its session. -/
theorem namesKept_initial (env : Env) (actions : Array Action) :
    NamesKept env none (env.initial actions) := by
  refine ⟨nofun, fun name _ => ?_⟩
  unfold Env.initial
  cases env.session <;> rfl

/-- Storing under another name keeps the names of the session. -/
theorem NamesKept.store (h : NamesKept env scope s) {name : String}
    (hname : name ∉ ["tracks", "state"]) (v : Value) : NamesKept env scope (s.store name v) := by
  refine ⟨h.binding, fun other hother => ?_⟩
  have hne : name ≠ other := fun heq => hname (heq ▸ hother)
  rw [State.symbol?_store, if_neg hne, h.symbols other hother]

theorem NamesKept.rootAt (h : NamesKept env scope s) (hsession : env.session = some session) :
    rootAt env scope s "tracks" = .ok session.tracksValue ∧
      rootAt env scope s "state" = .ok session.toValue := by
  have hbinding (name : String) (hname : name ∈ ["tracks", "state"]) :
      scope.bind (·.get? name) = none := by
    cases scope with
    | none => rfl
    | some b =>
      have hne : b.name ≠ name := fun heq => h.binding b rfl (heq ▸ hname)
      exact if_neg hne
  have hinitial : env.initial #[] = (State.fresh #[]).store "tracks" session.tracksValue := by
    rw [Env.initial, hsession]
  constructor
  · rw [rootAt_eq, hbinding "tracks" (by simp), h.symbols "tracks" (by simp), hinitial]
    rfl
  · rw [rootAt_eq, hbinding "state" (by simp), h.symbols "state" (by simp), hinitial, hsession]
    rfl

theorem follow_cons (v : Value) (segment : String) (path : List String) :
    v.follow (segment :: path) = v.step segment >>= fun inner => inner.follow path := rfl

/-- Both paths to the tracks of a session go on from the list of all tracks. -/
theorem NamesKept.exec_tracks (h : NamesKept env scope s) (hsession : env.session = some session)
    (path : List String) :
    (evaluate env (.property "tracks" path) scope).exec s =
        (session.tracksValue.follow path, s) ∧
      (evaluate env (.property "state" ("tracks" :: path)) scope).exec s =
        (session.tracksValue.follow path, s) := by
  obtain ⟨htracks, hstate⟩ := h.rootAt hsession
  rw [exec_property, exec_property, htracks, hstate]
  exact ⟨rfl, rfl⟩

/-- A field of a record is one step away. -/
theorem step_of_field? {v field : Value} {name : String} (h : v.field? name = some field) :
    v.step name = .ok field := by
  cases v with
  | map fields =>
    have hfind : Fields.find? name fields = some field := h
    rw [Value.step, hfind]
  | _ => cases h

/-- An item of a list is one step away, by the number that a segment stands for. -/
theorem step_list {segment : String} {p : Nat} (h : Decimal.natural? segment.toList = some p)
    (items : List Value) :
    (Value.list items).step segment =
      items[p]?.elim (.error (.propertyNotFound segment .list)) .ok := by
  rw [Value.step, h]
  simp only [Option.bind_some]
  cases items[p]? <;> rfl

variable {segment : String} {p : Nat}

theorem follow_part {t : Track} (hsegment : Decimal.natural? segment.toList = some p)
    (ht : session.tracks[p]? = some t) (hkept : Session.TrackKept t) (part : TrackPart) :
    session.tracksValue.follow [segment, part.name] = .ok (.list (part.items t)) := by
  rw [follow_cons, Session.tracksValue, step_list hsegment, List.getElem?_map, ht]
  change (t.toValue.step part.name >>= fun inner => inner.follow []) = _
  rw [step_of_field? (part.field?_toValue hkept)]
  rfl

theorem follow_noTrack (hsegment : Decimal.natural? segment.toList = some p)
    (hp : session.tracks.length ≤ p) (path : List String) :
    session.tracksValue.follow (segment :: path) = .error (.propertyNotFound segment .list) := by
  rw [follow_cons, Session.tracksValue, step_list hsegment, List.getElem?_map,
    List.getElem?_eq_none hp]
  rfl

end Paths

/-! ## Loaded sessions -/

/-- Steps through a field go on from what it holds. -/
theorem Value.at?_of_field {v field : Value} {name : String} (h : v.field? name = some field)
    (rest : List Step) : v.at? (.field name :: rest) = field.at? rest := by
  cases v with
  | map fields =>
    have hfind : Fields.find? name fields = some field := h
    change (Fields.find? name fields).bind _ = _
    rw [hfind, Option.bind_some]
  | _ => cases h

namespace Session

variable {j : Json} {session : Session} {p : Nat} {t : Track}

/-- The positions of the tracks of a session that is loaded are words. -/
theorem toInt_position (hj : j.IsTree) (h : ofJson j = .ok session)
    (hp : p < session.tracks.length) : (Int64.ofNat p).toInt = p := by
  obtain ⟨tracks, htracks, rfl⟩ := ofJson_eq_ok_iff.1 h
  have hlength := length_lt_of_readTracks hj htracks
  rw [ofTracks, List.length_mapIdx] at hp
  unfold wordLimit at hlength
  exact Int64.toInt_ofNat_of_lt (by omega)

/-- A member that the record of an effect or a clip does not model is found in the list of the
track, where it stood in the tree. -/
theorem at?_items (hj : j.IsTree) (h : ofJson j = .ok session) (ht : session.tracks[p]? = some t)
    (part : TrackPart) {rest : List Step} {member : Json}
    (hrest : Unmodelled (.field part.name :: rest))
    (hmember : (tracksMember? (unwrapped j)).bind
      (Json.at? (.item p :: .field part.name :: rest)) = some member) :
    (Value.list (part.items t)).at? rest = some (.ofJson member) := by
  have hkept := (sessionKept_of_ofJson hj h).tracks t (List.mem_of_getElem? ht)
  obtain ⟨tracks, htracks, rfl⟩ := ofJson_eq_ok_iff.1 h
  obtain ⟨found, hfound, hpath⟩ := Option.bind_eq_some_iff.1 hmember
  have htree := isTree_tracksMember (isTree_unwrapped hj) hfound
  have hread := readTracks_eq_ok htracks
  rw [hfound] at hread
  obtain ⟨⟨⟩, -⟩ | ⟨items, ⟨⟩, hitems⟩ := taken_readList hread
  obtain ⟨_, ⟨⟩, item, hitem, hat⟩ := Json.at?_item_eq_some_iff.1 hpath
  obtain ⟨hlt, rfl⟩ := List.getElem?_eq_some_iff.1 hitem
  obtain ⟨hlt', rfl⟩ := List.getElem?_eq_some_iff.1 ht
  -- the track is what is read of the item, with an index
  obtain ⟨t', position, ht', hnumbered⟩ := (forall₂_numbered hitems).get hlt hlt'
  have hvalue := at?_readTrack (htree.item _ (List.getElem_mem hlt)) ht' hrest hat position
  rw [hnumbered] at hvalue
  exact (Value.at?_of_field (part.field?_toValue hkept) rest).symm.trans hvalue

end Session

/-! ## Main result -/

/-- In a session that is loaded, while its names are not overwritten, the effects of the track at a
position are the same list by query, along the path from `tracks` and along the path from `state`,
and so are its clips. Items of the list have the members that their records do not model. For an
integer that is no position the queries return the empty list, and a number that is none is refused
as a segment of the list of tracks. -/
theorem track_parts_agree (config : Config) {j : Json} {session : Session} (hj : j.IsTree)
    (h : Session.ofJson j = .ok session) {scope : Option Binding} {s : State}
    (hnames : NamesKept ⟨some session, config⟩ scope s) (part : TrackPart) :
    let env : Env := ⟨some session, config⟩
    let byQuery (arguments : List (Arg Expr)) :=
      evaluate env (.call part.query.name arguments) scope
    let fromTracks (segment : String) :=
      evaluate env (.property "tracks" [segment, part.name]) scope
    let fromState (segment : String) :=
      evaluate env (.property "state" ["tracks", segment, part.name]) scope
    (∀ p : Nat, Decimal.natural? (toString p).toList = some p) ∧
    (∀ p t, session.tracks[p]? = some t →
      let list := Value.list (part.items t)
      (Int64.ofNat p).toInt = p ∧
      (∀ arguments, (assign ["track_index"] arguments).isOk = true →
        AsksAbout env arguments scope s (Int64.ofNat p) →
        ((byQuery arguments).exec s).1 = .ok list) ∧
      (∀ segment, Decimal.natural? segment.toList = some p →
        (fromTracks segment).exec s = (.ok list, s) ∧
        (fromState segment).exec s = (.ok list, s)) ∧
      ∀ rest member, Session.Unmodelled (.field part.name :: rest) →
        (Session.tracksMember? (Session.unwrapped j)).bind
          (Json.at? (.item p :: .field part.name :: rest)) = some member →
        list.at? rest = some (.ofJson member)) ∧
    (∀ index : Int64, (∀ p < session.tracks.length, index.toInt ≠ p) →
      ∀ arguments, (assign ["track_index"] arguments).isOk = true →
        AsksAbout env arguments scope s index →
        ((byQuery arguments).exec s).1 = .ok (.list [])) ∧
    ∀ p, session.tracks.length ≤ p →
      ∀ segment, Decimal.natural? segment.toList = some p →
        (fromTracks segment).exec s = (.error (.propertyNotFound segment .list), s) ∧
        (fromState segment).exec s = (.error (.propertyNotFound segment .list), s) := by
  intro env byQuery fromTracks fromState
  have hsession : env.session = some session := rfl
  have hpaths (segment : String) := hnames.exec_tracks hsession [segment, part.name]
  refine ⟨Decimal.natural?_toString, fun p t ht => ?_, ?_, ?_⟩
  · intro list
    have hword := Session.toInt_position hj h (List.getElem?_eq_some_iff.1 ht).1
    refine ⟨hword, ?_, ?_, ?_⟩
    · intro arguments htaken hasks
      have htrack : session.track? (Int64.ofNat p) = some t :=
        Session.track?_eq_some_iff.2 ⟨p, hword, ht⟩
      rw [exec_partQuery hsession part htaken hasks, htrack]
      rfl
    · intro segment hsegment
      have hkept := (Session.sessionKept_of_ofJson hj h).tracks t (List.mem_of_getElem? ht)
      have hboth := hpaths segment
      rwa [follow_part hsegment ht hkept part] at hboth
    · intro rest member hrest hmember
      exact Session.at?_items hj h ht part hrest hmember
  · intro index hindex arguments htaken hasks
    rw [exec_partQuery hsession part htaken hasks, Session.track?_eq_none hindex]
    rfl
  · intro p hp segment hsegment
    have hboth := hpaths segment
    rwa [follow_noTrack hsegment hp] at hboth

/-- A session with a track without effects, and one whose reverb has a preset. -/
def trackWithReverb : Json :=
  .object [("tracks", .array
    [.object [("name", .string "Drums")],
     .object [("fx", .array
       [.object [("name", .string "ReaVerb"), ("preset", .string "Hall")]])]])]

/-- The reverb is found in all three ways after other effects have been stored, and its preset with
it. There are no effects at -1, and no third track. -/
theorem parts_of_trackWithReverb : ∃ session, Session.ofJson trackWithReverb = .ok session ∧
    let env : Env := ⟨some session, {}⟩
    let s : State := (env.initial #[]).store "fx_chain" (.list [])
    let reverb : Value := .map
      [("enabled", .bool true), ("name", .string "ReaVerb"), ("preset", .string "Hall")]
    let index (n : Int64) : List (Arg Expr) := [⟨none, .literal (.int n)⟩]
    ((evaluate env (.call "get_fx_chain" (index 1)) none).exec s).1 = .ok (.list [reverb]) ∧
    (evaluate env (.property "tracks" ["1", "fx"]) none).exec s = (.ok (.list [reverb]), s) ∧
    (evaluate env (.property "state" ["tracks", "1", "fx"]) none).exec s =
      (.ok (.list [reverb]), s) ∧
    (Value.list [reverb]).at? [.item 0, .field "preset"] = some (.string "Hall") ∧
    ((evaluate env (.call "get_fx_chain" (index (-1))) none).exec s).1 = .ok (.list []) ∧
    (evaluate env (.property "tracks" ["2", "fx"]) none).exec s =
      (.error (.propertyNotFound "2" .list), s) := by
  obtain ⟨session, hsession⟩ : ∃ session, Session.ofJson trackWithReverb = .ok session :=
    ⟨_, rfl⟩
  have hkept := (namesKept_initial ⟨some session, {}⟩ #[]).store
    (show "fx_chain" ∉ ["tracks", "state"] by decide) (.list [])
  refine ⟨session, hsession, ?_⟩
  obtain ⟨-, hposition, hnone, hbeyond⟩ :=
    track_parts_agree {} (j := trackWithReverb) (by decide) hsession hkept .fx
  cases hsession
  obtain ⟨-, hquery, hpaths, hmember⟩ := hposition 1 _ rfl
  obtain ⟨htracks, hstate⟩ := hpaths "1" (by decide)
  exact ⟨hquery _ rfl rfl, htracks, hstate,
    hmember [.item 0, .field "preset"] _ (.effect 0 (by decide)) rfl,
    hnone (-1) (by decide) _ rfl rfl, (hbeyond 2 (by decide) "2" (by decide)).1⟩

end DawScript
