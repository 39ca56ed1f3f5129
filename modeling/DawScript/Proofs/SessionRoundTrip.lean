import DawScript.Proofs.RecordShape

/-!
# Sessions there and back

What a record keeps of a JSON tree is stable (`EffectKept`, `ClipKept`, `TrackKept`): it is read
back from the JSON form of the record's value. So a session is loaded from its own value again,
bare or under `state`, and a member that no record models is found in the value of the session
where it stood in the tree (`session_load`).
-/

set_option autoImplicit false

namespace DawScript

/-! ## Paths -/

/-- A step into a value: to the field under a name, or to the item at a position. -/
inductive Step where
  | field (name : String)
  | item (position : Nat)

namespace Json

/-- What a step leads to in a JSON value. -/
def step? : Step → Json → Option Json
  | .field name, .object members => Fields.find? name members
  | .item position, .array items => items[position]?
  | _, _ => none

/-- What several steps lead to in a JSON value. -/
def at? : List Step → Json → Option Json
  | [], j => some j
  | step :: rest, j => (j.step? step).bind (at? rest)

variable {name : String} {rest : List Step} {j x : Json}

theorem at?_field_eq_some_iff : j.at? (.field name :: rest) = some x ↔
    ∃ members, j = .object members ∧
      ∃ member, Fields.find? name members = some member ∧ member.at? rest = some x := by
  cases j with
  | object members =>
    change (Fields.find? name members).bind _ = _ ↔ _
    simp [Option.bind_eq_some_iff]
  | _ => exact iff_of_false (by rintro ⟨⟩) (by rintro ⟨_, ⟨⟩, _⟩)

theorem at?_item_eq_some_iff {k : Nat} : j.at? (.item k :: rest) = some x ↔
    ∃ items, j = .array items ∧ ∃ item, items[k]? = some item ∧ item.at? rest = some x := by
  cases j with
  | array items =>
    change (items[k]?).bind _ = _ ↔ _
    simp [Option.bind_eq_some_iff]
  | _ => exact iff_of_false (by rintro ⟨⟩) (by rintro ⟨_, ⟨⟩, _⟩)

end Json

namespace Value

/-- What a step leads to in a value. -/
def step? : Step → Value → Option Value
  | .field name, .map fields => Fields.find? name fields
  | .item position, .list items => items[position]?
  | _, _ => none

/-- What several steps lead to in a value. -/
def at? : List Step → Value → Option Value
  | [], v => some v
  | step :: rest, v => (v.step? step).bind (at? rest)

theorem at?_field {name : String} {rest : List Step} {v field x : Value}
    (hfield : v.field? name = some field) (hrest : field.at? rest = some x) :
    v.at? (.field name :: rest) = some x := by
  cases v with
  | map fields =>
    change (Fields.find? name fields).bind _ = _
    exact Option.bind_eq_some_iff.2 ⟨field, hfield, hrest⟩
  | _ => cases hfield

end Value

namespace Session

/-- The steps from a track to a member of it, of one of its effects or of one of its clips that
the record there does not model. -/
inductive Unmodelled : List Step → Prop where
  | track {name : String} (h : name ∉ ["index", "name", "selected", "fx", "clips"]) :
    Unmodelled [.field name]
  | effect (position : Nat) {name : String} (h : name ∉ ["name", "enabled"]) :
    Unmodelled [.field "fx", .item position, .field name]
  | clip (position : Nat) {name : String} (h : name ∉ ["start", "length", "name"]) :
    Unmodelled [.field "clips", .item position, .field name]

/-- The tracks in the JSON value of a session. -/
def tracksMember? : Json → Option Json
  | .object members => Fields.find? "tracks" members
  | .array (first :: _) => some first
  | _ => none

/-! ## Reading lists and records -/

section Reading

variable {α : Type} {read : Json → Except Misfit α} {items : List Json} {values : List α}

theorem mapM_eq_ok_iff : items.mapM read = .ok values ↔
    List.Forall₂ (fun item value => read item = .ok value) items values := by
  induction items generalizing values with
  | nil =>
    rw [List.mapM_nil, List.forall₂_nil_left_iff]
    exact ⟨fun h => (Except.ok.inj h).symm, fun h => h ▸ rfl⟩
  | cons item rest ih =>
    rw [List.mapM_cons, List.forall₂_cons_left_iff]
    cases hitem : read item with
    | error misfit => exact iff_of_false nofun (by rintro ⟨value, others, ⟨⟩, -⟩)
    | ok value =>
      cases hrest : rest.mapM read with
      | error misfit =>
        refine iff_of_false nofun ?_
        rintro ⟨_, others, -, hothers, -⟩
        rw [ih.2 hothers] at hrest
        cases hrest
      | ok others =>
        constructor
        · intro h
          exact ⟨value, others, rfl, ih.1 hrest, (Except.ok.inj h).symm⟩
        · rintro ⟨_, others', ⟨⟩, hothers, rfl⟩
          rw [ih.2 hothers] at hrest
          cases hrest
          rfl

theorem readList_eq_ok_iff {j : Json} : readList read j = .ok values ↔
    ∃ items, j = .array items ∧
      List.Forall₂ (fun item value => read item = .ok value) items values := by
  cases j with
  | array items => simp [readList, mapM_eq_ok_iff]
  | _ => exact iff_of_false (by rintro ⟨⟩) (by rintro ⟨_, ⟨⟩, _⟩)

theorem readRecord_eq_ok_iff {j : Json} {title : String}
    {field : α → String × Json → Except Misfit α} {a b : α} :
    readRecord title field a j = .ok b ↔
      ∃ members, j = .object members ∧ members.foldlM field a = .ok b := by
  cases j with
  | object members => simp [readRecord]
  | _ => exact iff_of_false (by rintro ⟨⟩) (by rintro ⟨_, ⟨⟩, _⟩)

theorem taken_readFloat_isFinite {o : Option Json} {x y : Float} (hx : x.isFinite = true)
    (htree : ∀ j, o = some j → j.IsTree) (h : taken readFloat x o = .ok y) :
    y.isFinite = true := by
  cases o with
  | none =>
    cases h
    exact hx
  | some j =>
    have hj := htree j rfl
    cases j with
    | integer n =>
      cases h
      exact hj.isFinite_ofInt
    | float x =>
      cases h
      exact hj _ (List.mem_cons_self ..)
    | _ => cases h

/-- What is read of a list of records: nothing, or each item of an array. -/
theorem taken_readList {o : Option Json} (h : taken (readList read) [] o = .ok values) :
    (o = none ∧ values = []) ∨ ∃ items, o = some (.array items) ∧
      List.Forall₂ (fun item value => read item = .ok value) items values := by
  cases o with
  | none => exact Or.inl ⟨rfl, (Except.ok.inj h).symm⟩
  | some j =>
    obtain ⟨items, rfl, hitems⟩ := readList_eq_ok_iff.1 h
    exact Or.inr ⟨items, rfl, hitems⟩

theorem forall_of_taken_readList {P : α → Prop} {o : Option Json}
    (hread : ∀ j value, j.IsTree → read j = .ok value → P value)
    (htree : ∀ j, o = some j → j.IsTree) (h : taken (readList read) [] o = .ok values) :
    ∀ value ∈ values, P value := by
  obtain ⟨-, rfl⟩ | ⟨items, rfl, hitems⟩ := taken_readList h
  · nofun
  · have hitem := (htree _ rfl).item
    intro value hvalue
    obtain ⟨i, hi, rfl⟩ := List.getElem_of_mem hvalue
    exact hread _ _ (hitem _ (List.getElem_mem _)) (hitems.get (hitems.length_eq ▸ hi) hi)

/-- Records are read back from the JSON form of their values if each of them is. -/
theorem readList_toJson {write : α → Value}
    (h : ∀ value ∈ values, read (write value).toJson = .ok value) :
    readList read (Value.list (values.map write)).toJson = .ok values := by
  refine readList_eq_ok_iff.2 ⟨_, rfl, ?_⟩
  rw [Value.itemsToJson_eq, List.map_map, List.forall₂_map_left_iff]
  exact List.forall₂_same.2 h

end Reading

/-! ## What records keep -/

/-- An effect keeps no member that it models among the extra ones. -/
def EffectKept (e : Effect) : Prop := Kept effectShape.names e.extra

/-- A clip keeps no member that it models among the extra ones, and its place and length are
finite. -/
structure ClipKept (c : Clip) : Prop where
  extra : Kept clipShape.names c.extra
  start : c.start.isFinite = true
  length : c.length.isFinite = true

/-- A track keeps no member that it models among the extra ones, nor do its effects and clips. -/
structure TrackKept (t : Track) : Prop where
  extra : Kept trackShape.names t.extra
  fx : ∀ e ∈ t.fx, EffectKept e
  clips : ∀ c ∈ t.clips, ClipKept c

section Kept

variable {j : Json}

theorem effectKept_of_read {e : Effect} (hj : j.IsTree) (h : readEffect j = .ok e) :
    EffectKept e := by
  obtain ⟨members, rfl, hmembers⟩ := readRecord_eq_ok_iff.1 h
  exact effectShape.kept_extra rfl hj hmembers

theorem clipKept_of_read {c : Clip} (hj : j.IsTree) (h : readClip j = .ok c) : ClipKept c := by
  obtain ⟨members, rfl, hmembers⟩ := readRecord_eq_ok_iff.1 h
  have hslots := ((clipShape.foldlM_field_eq_ok_iff hj.sorted.nodup).1 hmembers).1
  simp only [clipShape, List.forall_mem_cons] at hslots
  obtain ⟨hstart, hlength, -⟩ := hslots
  exact ⟨clipShape.kept_extra rfl hj hmembers,
    taken_readFloat_isFinite (by decide) (fun _ => hj.find?) hstart,
    taken_readFloat_isFinite (by decide) (fun _ => hj.find?) hlength⟩

theorem trackKept_of_read {t : Track} (hj : j.IsTree) (h : readTrack j = .ok t) :
    TrackKept t := by
  obtain ⟨members, rfl, hmembers⟩ := readRecord_eq_ok_iff.1 h
  have hslots := ((trackShape.foldlM_field_eq_ok_iff hj.sorted.nodup).1 hmembers).1
  simp only [trackShape, List.forall_mem_cons] at hslots
  obtain ⟨-, -, -, hfx, hclips, -⟩ := hslots
  exact ⟨trackShape.kept_extra rfl hj hmembers,
    forall_of_taken_readList (fun _ _ => effectKept_of_read) (fun _ => hj.find?) hfx,
    forall_of_taken_readList (fun _ _ => clipKept_of_read) (fun _ => hj.find?) hclips⟩

theorem readFloat_toJson {x : Float} (h : x.isFinite = true) :
    readFloat (Value.float x).toJson = .ok x := by
  rw [Value.toJson, if_pos h]
  rfl

theorem readWord_toJson (n : Int64) : readWord (Value.int n).toJson = .ok n := by
  rw [Value.toJson, readWord, word?_toInt]

theorem EffectKept.read {e : Effect} (h : EffectKept e) : readEffect e.toValue.toJson = .ok e := by
  refine effectShape.read_toValue rfl _ h ?_
  simp only [effectShape, List.forall_mem_cons]
  exact ⟨rfl, rfl, nofun⟩

theorem ClipKept.read {c : Clip} (h : ClipKept c) : readClip c.toValue.toJson = .ok c := by
  refine clipShape.read_toValue rfl _ h.extra ?_
  simp only [clipShape, List.forall_mem_cons]
  exact ⟨readFloat_toJson h.start, readFloat_toJson h.length, rfl, nofun⟩

/-- A track is read back from the JSON form of its value. -/
theorem TrackKept.read {t : Track} (h : TrackKept t) : readTrack t.toValue.toJson = .ok t := by
  refine trackShape.read_toValue rfl _ h.extra ?_
  simp only [trackShape, List.forall_mem_cons]
  exact ⟨readWord_toJson _, rfl, rfl, readList_toJson fun e he => (h.fx e he).read,
    readList_toJson fun c hc => (h.clips c hc).read, nofun⟩

/-- No other field of a track hides its effects. -/
theorem TrackKept.field?_fx {t : Track} (h : TrackKept t) :
    t.toValue.field? "fx" = some (.list (t.fx.map Effect.toValue)) :=
  (trackShape.field?_toValue_slot h.extra trackShape.slots[3] (List.getElem_mem _)).trans
    (congrArg some (effectShape.viaJson_records t.fx))

/-- No other field of a track hides its clips. -/
theorem TrackKept.field?_clips {t : Track} (h : TrackKept t) :
    t.toValue.field? "clips" = some (.list (t.clips.map Clip.toValue)) :=
  (trackShape.field?_toValue_slot h.extra trackShape.slots[4] (List.getElem_mem _)).trans
    (congrArg some (clipShape.viaJson_records t.clips))

theorem TrackKept.numbered {t : Track} (h : TrackKept t) (position : Nat) :
    TrackKept (t.numbered position) := by
  unfold Track.numbered
  split
  · exact ⟨h.extra, h.fx, h.clips⟩
  · exact h

end Kept

/-! ## Members that are not modelled -/

section Positions

variable {j member : Json} {name : String} {rest : List Step}

/-- A member that a record does not model is found in the value of the record. -/
theorem Shape.at?_toValue {α : Type} (S : Shape α) {blank b : α} {title : String}
    (hblank : S.extra blank = []) (hj : j.IsTree)
    (hread : readRecord title S.field blank j = .ok b) (hname : name ∉ S.names)
    (hmember : j.at? [.field name] = some member) :
    (S.toValue b).at? [.field name] = some (.ofJson member) := by
  obtain ⟨members, rfl, hmembers⟩ := readRecord_eq_ok_iff.1 hread
  obtain ⟨_, ⟨⟩, found, hfind, hfound⟩ := Json.at?_field_eq_some_iff.1 hmember
  cases hfound
  refine Value.at?_field ?_ rfl
  rw [S.field?_toValue hblank hj hmembers hname, hfind, Option.map_some]

/-- Where items are found again in what is read of each, they are found in the list of it. -/
theorem at?_list {α : Type} {R : Json → α → Prop} {write : α → Value} {items : List Json}
    {values : List α} (h : List.Forall₂ R items values) {k : Nat}
    (hitem : ∀ item ∈ items, ∀ value, R item value → item.at? rest = some member →
      (write value).at? rest = some (.ofJson member))
    (hmember : (Json.array items).at? (.item k :: rest) = some member) :
    (Value.list (values.map write)).at? (.item k :: rest) = some (.ofJson member) := by
  obtain ⟨_, ⟨⟩, item, hk, hrest⟩ := Json.at?_item_eq_some_iff.1 hmember
  obtain ⟨hlt, rfl⟩ := List.getElem?_eq_some_iff.1 hk
  have hlt' : k < values.length := h.length_eq ▸ hlt
  change ((values.map write)[k]?).bind _ = _
  rw [List.getElem?_map, List.getElem?_eq_getElem hlt']
  exact hitem _ (List.getElem_mem hlt) _ (h.get hlt hlt') hrest

/-- A member of a record in a list is found where it was if it is found in each record. -/
theorem at?_readList {α : Type} {read : Json → Except Misfit α} {write : α → Value}
    {values : List α} {found : Json} {k : Nat} (hfound : found.IsTree)
    (h : taken (readList read) [] (some found) = .ok values)
    (hitem : ∀ item value, item.IsTree → read item = .ok value → item.at? rest = some member →
      (write value).at? rest = some (.ofJson member))
    (hmember : found.at? (.item k :: rest) = some member) :
    (Value.list (values.map write)).at? (.item k :: rest) = some (.ofJson member) := by
  obtain ⟨⟨⟩, -⟩ | ⟨items, ⟨⟩, hitems⟩ := taken_readList h
  exact at?_list hitems (fun item hmem value => hitem item value (hfound.item item hmem)) hmember

/-- What no record of a track models is found in the value of the track, whatever its index. -/
theorem at?_readTrack {t : Track} (hj : j.IsTree) (hread : readTrack j = .ok t)
    (hrest : Unmodelled rest) (hmember : j.at? rest = some member) (position : Nat) :
    (t.numbered position).toValue.at? rest = some (.ofJson member) := by
  have hkept := (trackKept_of_read hj hread).numbered position
  have hsame : (t.numbered position).extra = t.extra ∧ (t.numbered position).fx = t.fx ∧
      (t.numbered position).clips = t.clips := by
    unfold Track.numbered
    split <;> exact ⟨rfl, rfl, rfl⟩
  obtain ⟨members, rfl, hmembers⟩ := readRecord_eq_ok_iff.1 hread
  have hslots := ((trackShape.foldlM_field_eq_ok_iff hj.sorted.nodup).1 hmembers).1
  simp only [trackShape, List.forall_mem_cons] at hslots
  obtain ⟨-, -, -, hfx, hclips, -⟩ := hslots
  cases hrest with
  | track hname =>
    obtain ⟨_, ⟨⟩, found, hfind, ⟨⟩⟩ := Json.at?_field_eq_some_iff.1 hmember
    refine Value.at?_field ((trackShape.field?_toValue_extra hkept.extra hname).trans ?_) rfl
    change Fields.find? _ (t.numbered position).extra = _
    have hextra : t.extra = unmodelled trackShape.names members :=
      trackShape.extra_eq rfl hj hmembers
    rw [hsame.1, hextra, find?_unmodelled (show _ ∉ trackShape.names from hname), hfind,
      Option.map_some]
  | effect k hname =>
    obtain ⟨_, ⟨⟩, found, hfind, hfound⟩ := Json.at?_field_eq_some_iff.1 hmember
    rw [hfind, ← hsame.2.1] at hfx
    refine Value.at?_field hkept.field?_fx ?_
    exact at?_readList (hj.find? hfind) hfx (fun item e hitem he =>
      effectShape.at?_toValue rfl hitem he hname) hfound
  | clip k hname =>
    obtain ⟨_, ⟨⟩, found, hfind, hfound⟩ := Json.at?_field_eq_some_iff.1 hmember
    rw [hfind, ← hsame.2.2] at hclips
    refine Value.at?_field hkept.field?_clips ?_
    exact at?_readList (hj.find? hfind) hclips (fun item c hitem hc =>
      clipShape.at?_toValue rfl hitem hc hname) hfound

end Positions

/-! ## Sessions -/

theorem readTracks_eq_ok {j : Json} {tracks : List Track} (h : readTracks j = .ok tracks) :
    taken (readList readTrack) [] (tracksMember? j) = .ok tracks := by
  unfold readTracks at h
  split at h
  · next members =>
    rw [tracksMember?]
    split at h
    · next hfind => rwa [hfind]
    · next hfind => rwa [hfind]
  · exact h
  · next first rest =>
    rw [tracksMember?, taken]
    cases hfirst : readList readTrack first with
    | error misfit =>
      rw [hfirst] at h
      cases h
    | ok read =>
      rw [hfirst] at h
      change (if rest.isEmpty then Except.ok read else _) = _ at h
      split at h
      · exact h
      · cases h
  · cases h

theorem isTree_unwrapped {j : Json} (h : j.IsTree) : (unwrapped j).IsTree := by
  unfold unwrapped
  split
  · next inner hinner =>
    split
    · cases j with
      | object members => exact h.find? hinner
      | _ => cases hinner
    · exact h
  · exact h

theorem isTree_tracksMember {j found : Json} (h : j.IsTree)
    (hfound : tracksMember? j = some found) : found.IsTree := by
  unfold tracksMember? at hfound
  split at hfound
  · exact h.find? hfound
  · cases hfound
    exact h.item _ (List.mem_cons_self ..)
  · cases hfound

theorem numbered_of_ne {t : Track} (h : t.index ≠ Track.unset) (position : Nat) :
    t.numbered position = t :=
  if_neg h

/-- The position of a track is an index. -/
theorem index_numbered_ne (t : Track) {position : Nat} (h : (position : Int) < wordLimit) :
    (t.numbered position).index ≠ Track.unset := by
  unfold Track.numbered
  split
  · intro hunset
    have hposition : (Int64.ofNat position).toInt = position :=
      Int64.toInt_ofNat_of_lt (by unfold wordLimit at h; omega)
    have hnegative : (Int64.ofNat position).toInt = -1 := congrArg Int64.toInt hunset
    omega
  · assumption

/-- Each track of a session is what is read of its item, with an index. -/
theorem forall₂_numbered {items : List Json} {tracks : List Track}
    (h : List.Forall₂ (fun item t => readTrack item = .ok t) items tracks) :
    List.Forall₂ (fun item t => ∃ t' position, readTrack item = .ok t' ∧ t'.numbered position = t)
      items (tracks.mapIdx Track.numbered) := by
  have hlength := h.length_eq
  refine List.forall₂_iff_get.2 ⟨hlength.trans List.length_mapIdx.symm, fun i hi _ => ?_⟩
  exact ⟨tracks[i], i, h.get hi (hlength ▸ hi), List.getElem_mapIdx.symm⟩

/-- The tracks of a session have indices and keep what they should. -/
structure SessionKept (s : Session) : Prop where
  tracks : ∀ t ∈ s.tracks, TrackKept t
  index : ∀ t ∈ s.tracks, t.index ≠ Track.unset

section Sessions

variable {j : Json} {s : Session}

theorem ofJson_eq_ok_iff :
    ofJson j = .ok s ↔ ∃ tracks, readTracks (unwrapped j) = .ok tracks ∧ ofTracks tracks = s := by
  unfold ofJson
  cases readTracks (unwrapped j) with
  | ok tracks => simp
  | error misfit => simp

/-- The positions of the tracks that are read of a tree are words. -/
theorem length_lt_of_readTracks {tracks : List Track} (hj : j.IsTree)
    (h : readTracks (unwrapped j) = .ok tracks) : (tracks.length : Int) < wordLimit := by
  obtain ⟨-, rfl⟩ | ⟨items, hitems, hforall⟩ := taken_readList (readTracks_eq_ok h)
  · decide
  · rw [← hforall.length_eq]
    exact (isTree_tracksMember (isTree_unwrapped hj) hitems).length_lt

theorem sessionKept_of_ofJson (hj : j.IsTree) (h : ofJson j = .ok s) : SessionKept s := by
  obtain ⟨tracks, htracks, rfl⟩ := ofJson_eq_ok_iff.1 h
  have hread := readTracks_eq_ok htracks
  have hfound (found : Json) (hfound : tracksMember? (unwrapped j) = some found) : found.IsTree :=
    isTree_tracksMember (isTree_unwrapped hj) hfound
  have hkept := forall_of_taken_readList (fun _ _ => trackKept_of_read) hfound hread
  have hlength := length_lt_of_readTracks hj htracks
  have hmem {t : Track} (ht : t ∈ (ofTracks tracks).tracks) :
      ∃ i, ∃ hi : i < tracks.length, tracks[i].numbered i = t := List.mem_mapIdx.1 ht
  constructor
  · intro t ht
    obtain ⟨i, hi, rfl⟩ := hmem ht
    exact (hkept _ (List.getElem_mem hi)).numbered i
  · intro t ht
    obtain ⟨i, hi, rfl⟩ := hmem ht
    exact index_numbered_ne _ (by omega)

theorem SessionKept.ofTracks (h : SessionKept s) : ofTracks s.tracks = s := by
  have htracks : s.tracks.mapIdx Track.numbered = s.tracks := by
    refine List.ext_getElem (List.length_mapIdx ..) fun i hi hi' => ?_
    rw [List.getElem_mapIdx]
    exact numbered_of_ne (h.index _ (List.getElem_mem hi')) i
  rw [Session.ofTracks, htracks]

/-- The tracks of a session are read back from the JSON form of its value. -/
theorem SessionKept.readTracks (h : SessionKept s) :
    readTracks s.toValue.toJson = .ok s.tracks :=
  readList_toJson fun t ht => (h.tracks t ht).read

end Sessions

end Session

/-- A session that is loaded from a tree is loaded again, and no different, from the JSON form of
its value, bare or under `state` beside any other members. All its tracks have an index, and a
member of a track, an effect or a clip that the record does not model stands in the value of the
session where it stood in the tree, as the value of that member. -/
theorem session_load {j : Json} {s : Session} (hj : j.IsTree) (h : Session.ofJson j = .ok s) :
    Session.ofJson s.toValue.toJson = .ok s ∧
    (∀ members, Fields.find? "state" members = some s.toValue.toJson →
      Session.ofJson (.object members) = .ok s) ∧
    (∀ t ∈ s.tracks, t.index ≠ Track.unset) ∧
    ∀ i rest member, Session.Unmodelled rest →
      (Session.tracksMember? (Session.unwrapped j)).bind (Json.at? (.item i :: rest)) =
        some member →
      s.toValue.at? (.field "tracks" :: .item i :: rest) = some (.ofJson member) := by
  have hkept := Session.sessionKept_of_ofJson hj h
  refine ⟨Session.ofJson_eq_ok_iff.2 ⟨_, hkept.readTracks, hkept.ofTracks⟩,
    fun members hstate => ?_, hkept.index, fun i rest member hrest hmember => ?_⟩
  · have hunwrapped : Session.unwrapped (.object members) = s.toValue.toJson := by
      unfold Session.unwrapped
      rw [Json.member?, hstate]
      rfl
    refine Session.ofJson_eq_ok_iff.2 ⟨_, ?_, hkept.ofTracks⟩
    rw [hunwrapped]
    exact hkept.readTracks
  · obtain ⟨tracks, htracks, rfl⟩ := Session.ofJson_eq_ok_iff.1 h
    obtain ⟨found, hfound, hpath⟩ := Option.bind_eq_some_iff.1 hmember
    have htree := Session.isTree_tracksMember (Session.isTree_unwrapped hj) hfound
    have hread := Session.readTracks_eq_ok htracks
    rw [hfound] at hread
    obtain ⟨⟨⟩, -⟩ | ⟨items, ⟨⟩, hitems⟩ := Session.taken_readList hread
    have hfield : (Session.mk (tracks.mapIdx Track.numbered)).toValue.field? "tracks" =
        some (.list ((tracks.mapIdx Track.numbered).map Track.toValue)) := rfl
    refine Value.at?_field hfield (Session.at?_list (Session.forall₂_numbered hitems) ?_ hpath)
    rintro item hitem _ ⟨t, position, ht, rfl⟩ hat
    exact Session.at?_readTrack (htree.item item hitem) ht hrest hat position

/-- A session with one red track, whose one clip begins at an integer and has a gain. -/
def redTrack : Json :=
  .object [("tracks", .array [.object
    [("clips", .array [.object [("gain", .float 0.5), ("start", .integer 2)]]),
     ("color", .string "red"), ("index", .integer (-1))]])]

/-- The colour and the gain are found in the session that is loaded, which is loaded again from
its own value. -/
theorem session_load_redTrack : ∃ s, Session.ofJson redTrack = .ok s ∧
    Session.ofJson s.toValue.toJson = .ok s ∧
    s.toValue.at? [.field "tracks", .item 0, .field "color"] = some (.string "red") ∧
    s.toValue.at? [.field "tracks", .item 0, .field "clips", .item 0, .field "gain"] =
      some (.float 0.5) := by
  obtain ⟨hagain, -, -, hmember⟩ := session_load (j := redTrack) (by decide) rfl
  exact ⟨_, rfl, hagain, hmember 0 [.field "color"] _ (.track (by decide)) rfl,
    hmember 0 [.field "clips", .item 0, .field "gain"] _ (.clip 0 (by decide)) rfl⟩

end DawScript
