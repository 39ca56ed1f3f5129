import DawScript.Proofs.RecordFields

/-!
# The shape of records

The three records of a session are read and written alike: each has slots for its known fields and
an extra map (`Shape`). A record is read from members in order exactly if each slot is read from
the member of its name, and the extra map is what the slots leave
(`Shape.foldlM_field_eq_ok_iff`). So a record is read back from its own JSON form if its slots are
(`Shape.read_toValue`), and a member without a slot is found in the value of the record
(`Shape.field?_toValue`). The value has come by way of JSON, so all its numbers are finite
(`Shape.floatsFinite_toValue`).
-/

set_option autoImplicit false

namespace DawScript.Session

/-- A known field of a record: its name, how it is read and written, and where it is held. -/
structure Slot (α : Type) where
  name : String
  Held : Type
  read : Json → Except Misfit Held
  write : Held → Value
  get : α → Held
  set : Held → α → α

/-- The known fields of a record as values. -/
def knownFields {α : Type} (slots : List (Slot α)) (a : α) : List (String × Value) :=
  slots.map fun slot => (slot.name, slot.write (slot.get a))

/-- How a record is made of members and how it is written as a value. -/
structure Shape (α : Type) where
  slots : List (Slot α)
  extra : α → List (String × Value)
  field : α → String × Json → Except Misfit α
  toValue : α → Value
  nodup : (slots.map Slot.name).Nodup
  field_known : ∀ slot ∈ slots, ∀ a j, field a (slot.name, j) = (slot.read j).map (slot.set · a)
  field_unknown : ∀ name, name ∉ slots.map Slot.name → ∀ a j, ∃ b, field a (name, j) = .ok b ∧
    (∀ slot ∈ slots, slot.get b = slot.get a) ∧ extra b = extra a ++ [(name, .ofJson j)]
  get_set : ∀ slot ∈ slots, ∀ held a, slot.get (slot.set held a) = held
  get_set_of_ne : ∀ slot ∈ slots, ∀ other ∈ slots, other.name ≠ slot.name → ∀ held a,
    other.get (slot.set held a) = other.get a
  extra_set : ∀ slot ∈ slots, ∀ held a, extra (slot.set held a) = extra a
  ext : ∀ a b, (∀ slot ∈ slots, slot.get a = slot.get b) → extra a = extra b → a = b
  toValue_eq : ∀ a, toValue a = .ofRecord (knownFields slots a) (extra a)

/-- What a slot holds after a member is read if there is one: the member, or what it held before. -/
def taken {β : Type} (read : Json → Except Misfit β) (old : β) : Option Json → Except Misfit β
  | none => .ok old
  | some j => read j

theorem map_bind_eq_ok_iff {α β γ : Type} {x : Except Misfit α} {f : α → β}
    {g : β → Except Misfit γ} {c : γ} :
    (x.map f >>= g) = .ok c ↔ ∃ a, x = .ok a ∧ g (f a) = .ok c := by
  cases x with
  | error misfit => exact iff_of_false nofun nofun
  | ok a => exact ⟨fun h => ⟨a, rfl, h⟩, by rintro ⟨_, ⟨⟩, h⟩; exact h⟩

/-- Under a name in the value of a record stands what JSON leaves of the field. -/
theorem field?_ofRecord {name : String} (known extra : List (String × Value)) :
    (Value.ofRecord known extra).field? name =
      (Fields.find? name (Fields.insertAll (Fields.ofList known) extra)).map Value.viaJson := by
  rw [Value.ofRecord, Value.viaJson_map]
  exact Fields.find?_map Value.viaJson _

namespace Shape

variable {α : Type} (S : Shape α) {a b : α} {members : List (String × Json)}

/-- The names of the fields that a record models. -/
def names : List String := S.slots.map Slot.name

theorem unmodelled_cons_of_mem {names : List String} {name : String} {j : Json}
    (h : name ∈ names) : unmodelled names ((name, j) :: members) = unmodelled names members := by
  rw [unmodelled, List.filter_cons, if_neg (by simpa using h), unmodelled]

theorem unmodelled_cons_of_notMem {names : List String} {name : String} {j : Json}
    (h : name ∉ names) : unmodelled names ((name, j) :: members) =
      (name, .ofJson j) :: unmodelled names members := by
  rw [unmodelled, List.filter_cons, if_pos (by simpa using h), Value.ofMembers, unmodelled]

/-- Members with different names lead from a record to another exactly if each slot then holds
what is taken for it, and the extra map has got those that no slot takes. -/
theorem foldlM_field_eq_ok_iff (h : (members.map Prod.fst).Nodup) :
    members.foldlM S.field a = .ok b ↔
      (∀ slot ∈ S.slots, taken slot.read (slot.get a) (Fields.find? slot.name members) =
        .ok (slot.get b)) ∧
      S.extra b = S.extra a ++ unmodelled S.names members := by
  induction members generalizing a with
  | nil =>
    simp only [List.foldlM_nil, pure, Except.pure, Except.ok.injEq, Fields.find?_nil, taken,
      unmodelled, List.filter_nil, Value.ofMembers, List.append_nil]
    refine ⟨fun hab => hab ▸ ⟨fun _ _ => rfl, rfl⟩, ?_⟩
    rintro ⟨hget, hextra⟩
    exact S.ext a b hget hextra.symm
  | cons member rest ih =>
    obtain ⟨name, j⟩ := member
    obtain ⟨hfirst, hrest⟩ := List.nodup_cons.1 h
    rw [List.foldlM_cons]
    by_cases hname : name ∈ S.names
    · obtain ⟨slot, hslot, rfl⟩ := List.mem_map.1 hname
      have hnone : Fields.find? slot.name rest = none := Fields.find?_eq_none_iff.2 hfirst
      have hother : ∀ other ∈ S.slots, other ≠ slot → other.name ≠ slot.name :=
        fun other hmem hne hname => hne (List.inj_on_of_nodup_map S.nodup hmem hslot hname)
      rw [S.field_known slot hslot, map_bind_eq_ok_iff, unmodelled_cons_of_mem hname]
      simp only [ih hrest, S.extra_set slot hslot]
      constructor
      · rintro ⟨held, hread, hslots, hextra⟩
        refine ⟨fun other hmem => ?_, hextra⟩
        have htaken := hslots other hmem
        rw [Fields.find?_cons]
        by_cases heq : other = slot
        · subst heq
          rw [hnone, S.get_set other hmem] at htaken
          rw [if_pos rfl]
          exact hread.trans htaken
        · rw [if_neg (hother other hmem heq).symm]
          rwa [S.get_set_of_ne slot hslot other hmem (hother other hmem heq)] at htaken
      · rintro ⟨hslots, hextra⟩
        have hread := hslots slot hslot
        rw [Fields.find?_cons, if_pos rfl] at hread
        refine ⟨slot.get b, hread, fun other hmem => ?_, hextra⟩
        by_cases heq : other = slot
        · subst heq
          rw [hnone, S.get_set other hmem]
          rfl
        · have htaken := hslots other hmem
          rw [Fields.find?_cons, if_neg (hother other hmem heq).symm] at htaken
          rwa [S.get_set_of_ne slot hslot other hmem (hother other hmem heq)]
    · obtain ⟨c, hc, hget, hextra⟩ := S.field_unknown name hname a j
      have hother : ∀ slot ∈ S.slots, name ≠ slot.name :=
        fun slot hslot heq => hname (heq ▸ List.mem_map_of_mem hslot)
      rw [hc, unmodelled_cons_of_notMem hname]
      refine (ih hrest).trans (and_congr (forall₂_congr fun slot hslot => ?_) ?_)
      · rw [hget slot hslot, Fields.find?_cons, if_neg (hother slot hslot)]
      · rw [hextra, List.append_assoc, List.singleton_append]

/-! ## There and back -/

theorem map_fst_knownFields (a : α) : (knownFields S.slots a).map Prod.fst = S.names := by
  rw [knownFields, List.map_map]
  rfl

/-- The fields of a record have its slots under their names. -/
theorem find?_slot (hkept : Kept S.names (S.extra a)) (slot : Slot α) (hslot : slot ∈ S.slots) :
    Fields.find? slot.name (Fields.insertAll (Fields.ofList (knownFields S.slots a)) (S.extra a)) =
      some (slot.write (slot.get a)) := by
  rw [← S.map_fst_knownFields a] at hkept
  refine hkept.find?_known ?_ (List.mem_map.2 ⟨slot, hslot, rfl⟩)
  rw [S.map_fst_knownFields]
  exact S.nodup

/-- What a record keeps of the members of a tree beside its slots. -/
theorem extra_eq {blank : α} (hblank : S.extra blank = [])
    (h : Json.IsTree (.object members)) (hread : members.foldlM S.field blank = .ok b) :
    S.extra b = unmodelled S.names members := by
  rw [((S.foldlM_field_eq_ok_iff h.sorted.nodup).1 hread).2, hblank, List.nil_append]

theorem kept_extra {blank : α} (hblank : S.extra blank = [])
    (h : Json.IsTree (.object members)) (hread : members.foldlM S.field blank = .ok b) :
    Kept S.names (S.extra b) := by
  rw [S.extra_eq hblank h hread]
  exact kept_unmodelled _ h

/-- The value of a record has what JSON leaves of its slots under their names. -/
theorem field?_toValue_slot (hkept : Kept S.names (S.extra a)) (slot : Slot α)
    (hslot : slot ∈ S.slots) :
    (S.toValue a).field? slot.name = some (slot.write (slot.get a)).viaJson := by
  rw [S.toValue_eq, field?_ofRecord, S.find?_slot hkept slot hslot, Option.map_some]

/-- The value of a record has its extra fields under all other names. -/
theorem field?_toValue_extra (hkept : Kept S.names (S.extra a)) {name : String}
    (hname : name ∉ S.names) :
    (S.toValue a).field? name = Fields.find? name (S.extra a) := by
  have hextra : Fields.find? name (Fields.insertAll (Fields.ofList (knownFields S.slots a))
      (S.extra a)) = Fields.find? name (S.extra a) := by
    refine hkept.find?_extra (fun entry hentry => ?_) hname
    rw [← S.map_fst_knownFields a]
    exact List.mem_map_of_mem hentry
  rw [S.toValue_eq, field?_ofRecord, hextra]
  cases hfind : Fields.find? name (S.extra a) with
  | none => rfl
  | some value => exact congrArg some (hkept.finite _ (Fields.mem_of_find? hfind)).viaJson

/-- The value of a record has finite numbers only, whatever the record holds. -/
theorem floatsFinite_toValue (a : α) : (S.toValue a).FloatsFinite := by
  rw [S.toValue_eq]
  exact Value.floatsFinite_viaJson _

/-- JSON leaves all of a list of records. -/
theorem viaJson_records (records : List α) :
    (Value.list (records.map S.toValue)).viaJson = .list (records.map S.toValue) :=
  Value.FloatsFinite.viaJson <| Value.floatsFinite_list_iff.2 <|
    List.forall_mem_map.2 fun a _ => S.floatsFinite_toValue a

/-- A member that a record does not model is found in the value of the record. -/
theorem field?_toValue {blank : α} (hblank : S.extra blank = [])
    (h : Json.IsTree (.object members)) (hread : members.foldlM S.field blank = .ok b)
    {name : String} (hname : name ∉ S.names) :
    (S.toValue b).field? name = (Fields.find? name members).map .ofJson := by
  rw [S.field?_toValue_extra (S.kept_extra hblank h hread) hname, S.extra_eq hblank h hread,
    find?_unmodelled hname]

/-- A record is read back from the JSON form of its value if each of its slots is. -/
theorem read_toValue {blank : α} (hblank : S.extra blank = []) (title : String)
    (hkept : Kept S.names (S.extra a))
    (hslots : ∀ slot ∈ S.slots, slot.read (slot.write (slot.get a)).toJson = .ok (slot.get a)) :
    readRecord title S.field blank (S.toValue a).toJson = .ok a := by
  have hsorted := (Fields.sorted_ofList (knownFields S.slots a)).insertAll (S.extra a)
  have hnames (fields : List (String × Value)) :
      (Value.fieldsToJson fields).map Prod.fst = fields.map Prod.fst := by
    rw [Value.fieldsToJson_eq, List.map_map]
    rfl
  rw [S.toValue_eq, Value.ofRecord, Value.toJson_viaJson, Value.toJson, readRecord,
    S.foldlM_field_eq_ok_iff]
  · refine ⟨fun slot hslot => ?_, ?_⟩
    · rw [Value.fieldsToJson_eq, Fields.find?_map, S.find?_slot hkept slot hslot]
      exact hslots slot hslot
    · rw [hblank, List.nil_append, ← S.map_fst_knownFields a]
      rw [← S.map_fst_knownFields a] at hkept
      exact hkept.unmodelled_fields.symm
  · rw [hnames]
    exact hsorted.nodup

end Shape

/-! ## The records of a session -/

/-- Effects have a name and are enabled or not. -/
def effectShape : Shape Effect where
  slots :=
    [⟨"name", String, readString, .string, Effect.name, fun name e => { e with name }⟩,
     ⟨"enabled", Bool, readBool, .bool, Effect.enabled, fun enabled e => { e with enabled }⟩]
  extra := Effect.extra
  field := effectField
  toValue := Effect.toValue
  nodup := by decide
  field_known := by simp [effectField]
  field_unknown := by
    intro name hname e j
    refine ⟨{ e with extra := e.extra ++ [(name, .ofJson j)] }, ?_, by simp, rfl⟩
    unfold effectField
    split <;> simp_all
  get_set := by simp
  get_set_of_ne := by simp
  extra_set := by simp
  ext := by
    rintro ⟨⟩ ⟨⟩ hslots hextra
    simp_all
  toValue_eq _ := rfl

/-- Clips have a place, a length and a name. -/
def clipShape : Shape Clip where
  slots :=
    [⟨"start", Float, readFloat, .float, Clip.start, fun start c => { c with start }⟩,
     ⟨"length", Float, readFloat, .float, Clip.length, fun length c => { c with length }⟩,
     ⟨"name", String, readString, .string, Clip.name, fun name c => { c with name }⟩]
  extra := Clip.extra
  field := clipField
  toValue := Clip.toValue
  nodup := by decide
  field_known := by simp [clipField]
  field_unknown := by
    intro name hname c j
    refine ⟨{ c with extra := c.extra ++ [(name, .ofJson j)] }, ?_, by simp, rfl⟩
    unfold clipField
    split <;> simp_all
  get_set := by simp
  get_set_of_ne := by simp
  extra_set := by simp
  ext := by
    rintro ⟨⟩ ⟨⟩ hslots hextra
    simp_all
  toValue_eq _ := rfl

/-- Tracks have an index and a name, are selected or not, and hold effects and clips. -/
def trackShape : Shape Track where
  slots :=
    [⟨"index", Int64, readWord, .int, Track.index, fun index t => { t with index }⟩,
     ⟨"name", String, readString, .string, Track.name, fun name t => { t with name }⟩,
     ⟨"selected", Bool, readBool, .bool, Track.selected, fun selected t => { t with selected }⟩,
     ⟨"fx", List Effect, readList readEffect, fun fx => .list (fx.map Effect.toValue), Track.fx,
      fun fx t => { t with fx }⟩,
     ⟨"clips", List Clip, readList readClip, fun clips => .list (clips.map Clip.toValue),
      Track.clips, fun clips t => { t with clips }⟩]
  extra := Track.extra
  field := trackField
  toValue := Track.toValue
  nodup := by decide
  field_known := by simp [trackField]
  field_unknown := by
    intro name hname t j
    refine ⟨{ t with extra := t.extra ++ [(name, .ofJson j)] }, ?_, by simp, rfl⟩
    unfold trackField
    split <;> simp_all
  get_set := by simp
  get_set_of_ne := by simp
  extra_set := by simp
  ext := by
    rintro ⟨⟩ ⟨⟩ hslots hextra
    simp_all
  toValue_eq _ := rfl

end DawScript.Session
