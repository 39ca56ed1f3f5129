import DawScript.Proofs.RoundTrip
import DawScript.Proofs.TrackCallbacks
import DawScript.Proofs.TrackParts

/-!
# Selected tracks

There are two ways to the selected tracks of a session: a combinator over those of its track records
that are selected, and the call that aims at the first one. The first goes to the index of each
record, the second to a position in the session, so they only go to the same track where a record
has its position as an index or a negative one (`selected_tracks_are_muted`).
-/

set_option autoImplicit false

namespace DawScript

/-- Emitting actions one after the other appends them. -/
theorem foldl_emit {α : Type} (g : α → Action) (xs : List α) (s : State) :
    xs.foldl (fun u x => u.emit (g x)) s =
      { s with actions := s.actions ++ (xs.map g).toArray } := by
  induction xs generalizing s with
  | nil => simp
  | cons x rest ih =>
    rw [List.foldl_cons, ih]
    simp [State.emit]

/-! ## Records -/

section Records

variable {t : Track}

theorem Session.TrackKept.field?_selected (h : Session.TrackKept t) :
    t.toValue.field? "selected" = some (.bool t.selected) :=
  Session.trackShape.field?_toValue_slot h.extra Session.trackShape.slots[2] (List.getElem_mem _)

theorem Session.TrackKept.trackIndex? (h : Session.TrackKept t) :
    t.toValue.trackIndex? = some t.index := by
  have hindex : t.toValue.field? "index" = some (.int t.index) :=
    (Session.trackShape.field?_toValue_slot h.extra Session.trackShape.slots[0]
      (List.getElem_mem _)).trans (congrArg some (Value.viaJson_int t.index))
  rw [Value.trackIndex?, hindex]
  rfl

end Records

/-! ## The selected records -/

/-- Whether a track is selected. -/
def isSelected : Expr := .binary .eq (.property "track" ["selected"]) (.literal (.bool true))

/-- The records of the tracks that are selected. -/
def selectedTracks : Expr := .call "filter" [⟨none, .name "tracks"⟩, ⟨none, isSelected⟩]

section Selected

variable {env : Env} {s : State}

theorem exec_isSelected {t : Track} (h : t.toValue.field? "selected" = some (.bool t.selected))
    (s : State) :
    (evaluate env isSelected (some ⟨"track", t.toValue⟩)).exec s =
      (.ok (.bool t.selected), s) := by
  have hproperty : (evaluate env (.property "track" ["selected"])
      (some ⟨"track", t.toValue⟩)).exec s = (.ok (.bool t.selected), s) := by
    have hroot : rootAt env (some ⟨"track", t.toValue⟩) s "track" = .ok t.toValue := rfl
    rw [exec_property, hroot]
    change (t.toValue.follow ["selected"], s) = _
    rw [follow_cons, step_of_field? h]
    rfl
  rw [isSelected, evaluate, Run.exec_bind_ok hproperty, evaluate, pure_bind]
  cases t.selected <;> rfl

/-- The selected records are those of the selected tracks, in the order of the tracks. -/
theorem exec_selectedTracks {session : Session} (hkept : ∀ t ∈ session.tracks, Session.TrackKept t)
    (hstored : s.symbol? "tracks" = some session.tracksValue) (scope : Option Binding) :
    (evaluate env selectedTracks scope).exec s =
      (.ok (.list ((session.tracks.filter Track.selected).map Track.toValue)), s) := by
  have hcall : VisitCall env .filter "filter" [⟨none, .name "tracks"⟩, ⟨none, isSelected⟩]
      isSelected (.name "tracks") fun scope => evaluate env isSelected (some scope) :=
    ⟨⟨_, "predicate", ⟨rfl, rfl⟩, rfl, rfl, rfl⟩, rfl⟩
  have hitems : (collection (meaning env (.name "tracks")) scope).exec s =
      (.ok (session.tracks.map Track.toValue, "track"), s) := by
    rw [collection_eq]
    change (itemsOf (itemName "tracks") ((s.symbol? "tracks").getD (.list []))).exec s = _
    rw [hstored]
    rfl
  have hvisit : (visit env .filter "track" (fun scope => evaluate env isSelected (some scope))
      (session.tracks.map Track.toValue)).exec s =
        (.ok (session.tracks.map fun t => (t.toValue, .bool t.selected)),
          session.tracks.foldl (fun u _ => u) s) :=
    exec_visitFrom_of_ok Track.toValue (fun t => .bool t.selected) (fun _ u => u)
      (fun t ht u => exec_isSelected (hkept t ht).field?_selected u) 0 s
  rw [List.foldl_fixed] at hvisit
  rw [selectedTracks, evaluate_visitCall hcall, Run.exec_within, Run.exec_bind_ok hitems,
    Run.exec_bind_ok hvisit]
  have hcollect : Combinator.filter.collect
      (session.tracks.map fun t => (t.toValue, Value.bool t.selected)) =
        .list ((session.tracks.filter Track.selected).map Track.toValue) := by
    rw [Combinator.collect, List.filter_map, List.map_map]
    rfl
  rw [hcollect]
  rfl

end Selected

/-! ## Muting -/

/-- The action that mutes a track. -/
def muting (track : Int64) : Action :=
  .of .setTrackMute [("track", .int track), ("mute", .bool true)]

theorem muting_inj {a b : Int64} : muting a = muting b ↔ a = b := by
  have hfind (track : Int64) :
      Fields.find? "track" (muting track).payload = some (.int track) :=
    Fields.find?_insertAll_of_mem (by simp) List.mem_cons_self []
  constructor
  · intro h
    have htrack := hfind a
    rw [h, hfind b] at htrack
    cases htrack
    rfl
  · rintro rfl
    rfl

/-- Where a call for a track record goes: to the index of the record, or to the first selected track
if the index is negative. -/
def Track.goal (first : Int64) (t : Track) : Int64 := if 0 ≤ t.index then t.index else first

/-- A record goes to the first selected track if that is its index, or if its index is negative. -/
theorem Track.goal_eq_iff {first : Int64} {t : Track} :
    t.goal first = first ↔ t.index = first ∨ t.index < 0 := by
  unfold Track.goal
  split
  · next hnonneg => simp [Int64.not_lt.2 hnonneg]
  · next hnegative => simp [Int64.not_le.1 hnegative]

/-- The arguments of a callback that mutes. -/
def muteArguments : List (Arg Expr) := [⟨some "mute", .literal (.bool true)⟩]

/-- Mutes each of the selected records. -/
def muteEach : Call :=
  ⟨"for_each", [⟨none, selectedTracks⟩, ⟨none, .function "set_mute" muteArguments⟩]⟩

/-- Aims at the first selected track. -/
def aimAtSelected : Call := ⟨"track", [⟨some "selected", .literal (.bool true)⟩]⟩

/-- Mutes the bound track. -/
def muteBound : Call := ⟨"set_mute", [⟨none, .literal (.bool true)⟩]⟩

section Muting

variable {env : Env} {first : Int64} {s : State}

theorem exec_mute {track : Int64} (h : env.aimed? s = some track) :
    ((Command.set .mute).run env [("mute", .bool true)]).exec s =
      (.ok (), s.emit (muting track)) := by
  have htrack := Run.exec_track env "set_mute" s
  rw [h] at htrack
  exact Run.exec_bind_ok htrack _

theorem aimed?_goal (hfirst : env.selected? = some first) (t : Track) :
    env.aimed? { s with target := t.index } = some (t.goal first) := by
  unfold Env.aimed? State.track? Track.goal
  rw [hfirst]
  split <;> rfl

/-- Muting a record mutes the track that the record goes to. -/
theorem exec_mute_record (hfirst : env.selected? = some first) {t : Track}
    (hindex : t.toValue.trackIndex? = some t.index) (name : String) (s : State) :
    (runCommandOnItem env (.set .mute) (meanings env muteArguments) ⟨name, t.toValue⟩).exec s =
      (.ok .null, s.emit (muting (t.goal first))) := by
  have hliteral : AllLiteral muteArguments := allLiteral_singleton rfl
  have hfx : Command.set .mute = .addFx → GivesFx muteArguments := by
    intro h
    cases h
  have hrun : (Command.set .mute).runWith env muteArguments =
      (Command.set .mute).run env [("mute", .bool true)] := rfl
  rw [runCommandOnItem_of_track hliteral hfx hindex, Run.exec_map, Run.exec_aimedAt, hrun,
    exec_mute (aimed?_goal hfirst t)]
  rfl

/-- Muting each of the selected records appends one action for each. -/
theorem exec_muteEach {session : Session} (hkept : ∀ t ∈ session.tracks, Session.TrackKept t)
    (hfirst : env.selected? = some first)
    (hstored : s.symbol? "tracks" = some session.tracksValue) :
    (muteEach.run env).exec s = (.ok .null, { s with
      actions := s.actions ++
        ((session.tracks.filter Track.selected).map fun t => muting (t.goal first)).toArray }) := by
  have hvisit : (visit env .forEach "item"
      (runCommandOnItem env (.set .mute) (meanings env muteArguments))
      ((session.tracks.filter Track.selected).map Track.toValue)).exec s = _ :=
    exec_visitFrom_of_ok Track.toValue (fun _ => .null) (fun t u => u.emit (muting (t.goal first)))
      (fun t ht u =>
        exec_mute_record hfirst (hkept t (List.mem_of_mem_filter ht)).trackIndex? "item" u) 0 s
  have hitems : (collection (meaning env selectedTracks) none).exec s =
      (.ok ((session.tracks.filter Track.selected).map Track.toValue, "item"), s) := by
    rw [collection_eq]
    exact Run.exec_bind_ok (exec_selectedTracks hkept hstored none) _
  rw [foldl_emit] at hvisit
  have hcall := exec_forEach_command env (.set .mute) muteArguments hitems hvisit
  rwa [evaluate] at hcall

/-- Aiming at the first selected track and muting it appends one action. -/
theorem exec_muteFirst (hfirst : env.selected? = some first) (hnonneg : 0 ≤ first) :
    (runCalls env [aimAtSelected, muteBound]).exec s =
      (.ok (), { s with target := first, actions := s.actions.push (muting first) }) := by
  have haim : (aimAtSelected.run env).exec s = (.ok .null, { s with target := first }) := by
    refine exec_run_of_literal (c := .track) rfl rfl ?_
    have hselected : Values.bool [("selected", .bool true)] "selected" = .ok (some true) := rfl
    change (Command.runTrack env [("selected", .bool true)]).exec s = _
    have hid : Values.int [("selected", .bool true)] "id" = .ok none := rfl
    rw [Command.runTrack, hid, Run.lift_ok_bind, hselected, Run.lift_ok_bind, hfirst]
    rfl
  have haimed : env.aimed? { s with target := first } = some first := by
    rw [Env.aimed?, State.track?, if_pos hnonneg]
    rfl
  have hmute : (muteBound.run env).exec { s with target := first } =
      (.ok .null, { s with target := first, actions := s.actions.push (muting first) }) :=
    exec_run_of_literal (c := .set .mute) rfl rfl (exec_mute haimed)
  rw [runCalls, Run.exec_bind_ok haim, runCalls, Run.exec_bind_ok hmute]
  rfl

end Muting

/-! ## Sessions -/

namespace Session

variable {j : Json} {s : Session} {p : Nat}

/-- The position of the first selected track of a session that is loaded is a word. -/
theorem toInt_selected? (hj : j.IsTree) (h : ofJson j = .ok s) (hp : s.selected? = some p) :
    (Int64.ofNat p).toInt = p := by
  exact toInt_position hj h (List.findIdx?_eq_some_iff_getElem.1 hp).1

/-- The first of the selected tracks is the one at the position of the first selected track. -/
theorem head?_selected {t : Track} (hp : s.selected? = some p) (ht : s.tracks[p]? = some t) :
    (s.tracks.filter Track.selected).head? = some t := by
  have hfound : s.tracks.findIdx? Track.selected = some p := hp
  rw [List.head?_filter, List.find?_eq_bind_findIdx?_getElem?, hfound, Option.bind_some, ht]

/-- A track that is read of a record without an index has none. -/
theorem index_of_readTrack {t : Track} (hj : j.IsTree) (h : readTrack j = .ok t)
    (hnone : j.member? "index" = none) : t.index = Track.unset := by
  obtain ⟨members, rfl, hmembers⟩ := readRecord_eq_ok_iff.1 h
  have hslots := ((trackShape.foldlM_field_eq_ok_iff hj.sorted.nodup).1 hmembers).1
  have hindex := hslots trackShape.slots[0] (List.getElem_mem _)
  have hfind : Fields.find? "index" members = none := hnone
  change taken readWord Track.unset (Fields.find? "index" members) = .ok t.index at hindex
  rw [hfind] at hindex
  exact (Except.ok.inj hindex).symm

/-- Where no record has an index, every track has its position as one. -/
theorem index_of_ofJson (hj : j.IsTree) (h : ofJson j = .ok s)
    (hnone : ∀ items, tracksMember? (unwrapped j) = some (.array items) →
      ∀ item ∈ items, item.member? "index" = none) {i : Nat} {t : Track}
    (ht : s.tracks[i]? = some t) : t.index = Int64.ofNat i := by
  obtain ⟨tracks, htracks, rfl⟩ := ofJson_eq_ok_iff.1 h
  obtain ⟨hlt, rfl⟩ := List.getElem?_eq_some_iff.1 ht
  have hi : i < tracks.length := by rwa [ofTracks, List.length_mapIdx] at hlt
  have hunset : tracks[i].index = Track.unset := by
    obtain ⟨-, rfl⟩ | ⟨items, hitems, hforall⟩ := taken_readList (readTracks_eq_ok htracks)
    · cases hi
    · have hi' : i < items.length := hforall.length_eq ▸ hi
      have htree := isTree_tracksMember (isTree_unwrapped hj) hitems
      exact index_of_readTrack (htree.item _ (List.getElem_mem hi')) (hforall.get hi' hi)
        (hnone items hitems _ (List.getElem_mem hi'))
  have hnumbered : (ofTracks tracks).tracks[i] = tracks[i].numbered i := List.getElem_mapIdx
  rw [hnumbered, Track.numbered, if_pos hunset]

end Session

/-! ## Scripts -/

theorem callsOf_muteEach :
    callsOf "for_each(filter(tracks, track.selected == true), @set_mute(mute=true))" =
      .ok [muteEach] := by
  have hcanonical : Program.Canonical ⟨[⟨[muteEach]⟩]⟩ := by decide +kernel
  have htext : Program.text ⟨[⟨[muteEach]⟩]⟩ =
      "for_each(filter(tracks, track.selected == true), @set_mute(mute=true))" := by
    decide +kernel
  rw [← htext]
  exact hcanonical.callsOf_text (List.cons_ne_nil _ _)

theorem callsOf_muteFirst :
    callsOf "track(selected=true).set_mute(true)" = .ok [aimAtSelected, muteBound] := by
  have hcanonical : Program.Canonical ⟨[⟨[aimAtSelected, muteBound]⟩]⟩ := by decide +kernel
  have htext : Program.text ⟨[⟨[aimAtSelected, muteBound]⟩]⟩ =
      "track(selected=true).set_mute(true)" := by
    decide +kernel
  rw [← htext]
  exact hcanonical.callsOf_text (List.cons_ne_nil _ _)

/-- A script whose calls succeed and append actions ends with these. -/
theorem interpretScript_of_ok {env : Env} {script : String} {calls : List Call}
    {actions : Array Action} {t : State} (hcalls : callsOf script = .ok calls)
    (hrun : (runCalls env calls).exec (env.initial actions) = (.ok (), t))
    (happended : t.actions.size ≠ actions.size) :
    interpretScript env script actions = (.ok ⟨t.skipped, t.symbols⟩, t.actions) := by
  rw [interpretScript, hcalls]
  simp only [interpret_eq, hrun, if_neg happended]

/-- In a session that is loaded, let the first selected track stand at a position. Muting the
selected tracks one by one, over the records that a filter leaves, passes over nothing and mutes one
track for each of them in their order: the track at the index of the record, or the first selected
one where the index is negative. Aiming at the first selected track mutes the one at its position.
So both begin with the same track exactly if the first selected record has its position as an index
or a negative one, which is always so where the session leaves out all indices. -/
theorem selected_tracks_are_muted (config : Config) (actions : Array Action) {j : Json}
    {s : Session} (hj : j.IsTree) (h : Session.ofJson j = .ok s) {p : Nat} {t : Track}
    (ht : s.tracks[p]? = some t) (hselected : t.selected = true)
    (hlowest : ∀ i < p, ∀ other, s.tracks[i]? = some other → other.selected = false) :
    let env : Env := ⟨some s, config⟩
    let first := Int64.ofNat p
    let each := (s.tracks.filter Track.selected).map fun t => muting (t.goal first)
    first.toInt = p ∧
    interpretScript env "for_each(filter(tracks, track.selected == true), @set_mute(mute=true))"
      actions = (.ok ⟨#[], (env.initial actions).symbols⟩, actions ++ each.toArray) ∧
    interpretScript env "track(selected=true).set_mute(true)" actions =
      (.ok ⟨#[], (env.initial actions).symbols⟩, actions ++ #[muting first]) ∧
    (each.head? = some (muting first) ↔ t.index.toInt = p ∨ t.index < 0) ∧
    ((∀ items, Session.tracksMember? (Session.unwrapped j) = some (.array items) →
        ∀ item ∈ items, item.member? "index" = none) →
      t.index.toInt = p ∧ each.head? = some (muting first)) := by
  intro env first each
  have hp : s.selected? = some p := by
    obtain ⟨hlt, rfl⟩ := List.getElem?_eq_some_iff.1 ht
    refine List.findIdx?_eq_some_iff_getElem.2 ⟨hlt, hselected, fun i hi => ?_⟩
    rw [hlowest i hi _ (List.getElem?_eq_getElem (Nat.lt_trans hi hlt))]
    exact Bool.false_ne_true
  have hkept := (Session.sessionKept_of_ofJson hj h).tracks
  have hword : first.toInt = p := Session.toInt_selected? hj h hp
  have hfirst : env.selected? = some first := by
    have hposition : env.session.bind Session.selected? = some p := hp
    rw [Env.selected?, hposition, Option.bind_some, word?_eq_some_iff, hword]
  have hnonneg : 0 ≤ first := by
    rw [Int64.le_iff_toInt_le, hword]
    exact Int.natCast_nonneg p
  have hhead : each.head? = some (muting (t.goal first)) := by
    rw [List.head?_map, Session.head?_selected hp ht]
    rfl
  have hagree : each.head? = some (muting first) ↔ t.index.toInt = p ∨ t.index < 0 := by
    rw [hhead, Option.some.injEq, muting_inj, Track.goal_eq_iff, ← Int64.toInt_inj, hword]
  have hstored : (env.initial actions).symbol? "tracks" = some s.tracksValue := rfl
  have hstart : (env.initial actions).actions = actions := initial_actions env actions
  have hsome : ∃ t ∈ s.tracks, t.selected = true := ⟨t, List.mem_of_getElem? ht, hselected⟩
  refine ⟨hword, ?_, ?_, hagree, fun hnone => ?_⟩
  · have hrun : (runCalls env [muteEach]).exec (env.initial actions) = (.ok (), _) :=
      Run.exec_bind_ok (exec_muteEach hkept hfirst hstored) _
    rw [interpretScript_of_ok callsOf_muteEach hrun]
    · rw [hstart, initial_skipped]
    · simpa [hstart] using hsome
  · rw [interpretScript_of_ok callsOf_muteFirst (exec_muteFirst hfirst hnonneg)]
    · rw [hstart, initial_skipped, Array.push_eq_append]
    · simp [hstart]
  · have hindex := Session.index_of_ofJson hj h hnone ht
    have hposition : t.index.toInt = p := by rw [hindex, hword]
    exact ⟨hposition, hagree.2 (Or.inl hposition)⟩

/-- Four tracks, three of them selected: one with an index of its own, one without, and one with a
negative index. -/
def fourTracks : Json :=
  .object [("tracks", .array
    [.object [("name", .string "Drums")],
     .object [("index", .integer 7), ("selected", .bool true)],
     .object [("selected", .bool true)],
     .object [("index", .integer (-5)), ("selected", .bool true)]])]

/-- The selected records go to the tracks at 7, at 2 and, for the negative index, at 1; the first
selected track is the one at 1. -/
theorem fourTracks_muted : ∃ s, Session.ofJson fourTracks = .ok s ∧
    (interpretScript ⟨some s, {}⟩
      "for_each(filter(tracks, track.selected == true), @set_mute(mute=true))" #[]).2 =
        #[muting 7, muting 2, muting 1] ∧
    (interpretScript ⟨some s, {}⟩ "track(selected=true).set_mute(true)" #[]).2 = #[muting 1] := by
  obtain ⟨s, hs⟩ : ∃ s, Session.ofJson fourTracks = .ok s := ⟨_, rfl⟩
  have hlowest : ∀ i < 1, ∀ other, s.tracks[i]? = some other → other.selected = false := by
    cases hs
    intro i hi other hother
    cases Nat.lt_one_iff.1 hi
    cases hother
    rfl
  refine ⟨s, hs, ?_⟩
  cases hs
  obtain ⟨-, heach, hfirst, -⟩ :=
    selected_tracks_are_muted {} #[] (j := fourTracks) (by decide) rfl rfl rfl hlowest
  exact ⟨congrArg Prod.snd heach, congrArg Prod.snd hfirst⟩

end DawScript
