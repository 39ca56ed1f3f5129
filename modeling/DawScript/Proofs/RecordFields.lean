import DawScript.Proofs.FloatRange
import DawScript.Proofs.JsonConversion
import DawScript.Session.Load

/-!
# The fields of records

A record has known fields and an extra map for all others. As a value it is the known fields with
the extra ones put among them, and what is under a name in it is known or extra but never both
(`Kept`). So the members that a record does not model are found again in its value, and reading
that value's JSON form leaves the same extra map (`Kept.unmodelled_fields`).
-/

set_option autoImplicit false

namespace DawScript

/-! ## Finding fields -/

namespace Fields

variable {α β : Type} {name : String} {value : α} {fields : List (String × α)}

theorem find?_map (f : α → β) (fields : List (String × α)) :
    find? name (fields.map fun field => (field.1, f field.2)) = (find? name fields).map f := by
  induction fields with
  | nil => rfl
  | cons field rest ih =>
    rw [List.map_cons, find?_cons, find?_cons, ih]
    split <;> rfl

theorem find?_filter (p : String → Bool) (fields : List (String × α)) :
    find? name (fields.filter fun field => p field.1) =
      if p name then find? name fields else none := by
  induction fields with
  | nil => exact (ite_self none).symm
  | cons field rest ih =>
    obtain ⟨key, value⟩ := field
    rw [List.filter_cons, find?_cons]
    by_cases hname : key = name
    · cases hp : p name <;> simp [hname, hp, ih, find?_cons]
    · cases hp : p key <;> simp [hname, ih, find?_cons]

theorem find?_eq_none_iff : find? name fields = none ↔ name ∉ fields.map Prod.fst := by
  induction fields with
  | nil => simp
  | cons field rest ih =>
    rw [find?_cons, List.map_cons, List.mem_cons, not_or, ← ih]
    by_cases hname : field.1 = name
    · simp [hname]
    · simp [hname, Ne.symm hname]

/-- The names of fields in order differ. -/
theorem Sorted.nodup (h : Sorted fields) : (fields.map Prod.fst).Nodup :=
  List.pairwise_map.2 (h.imp fun {a b} hlt (hname : a.1 = b.1) =>
    String.lt_irrefl b.1 (hname ▸ hlt))

theorem find?_of_mem (h : (fields.map Prod.fst).Nodup) (hmem : (name, value) ∈ fields) :
    find? name fields = some value := by
  induction fields with
  | nil => cases hmem
  | cons field rest ih =>
    obtain ⟨hfirst, hrest⟩ := List.nodup_cons.1 h
    rw [find?_cons]
    rcases List.mem_cons.1 hmem with rfl | hmem
    · exact if_pos rfl
    · have hne : field.1 ≠ name := fun heq => hfirst (heq ▸ List.mem_map_of_mem hmem)
      rw [if_neg hne, ih hrest hmem]

/-- Fields in order are determined by what is found under each name. -/
theorem Sorted.ext {others : List (String × α)} (h : Sorted fields) (h' : Sorted others)
    (hfind : ∀ name, find? name fields = find? name others) : fields = others := by
  have : Std.Irrefl fun a b : String × α => a.1 < b.1 := ⟨fun a => String.lt_irrefl a.1⟩
  have : Std.Antisymm fun a b : String × α => a.1 < b.1 :=
    ⟨fun a b hab hba => absurd (String.lt_trans hab hba) (String.lt_irrefl a.1)⟩
  refine List.Pairwise.eq_of_mem_iff h h' fun field => ⟨fun hfield => ?_, fun hfield => ?_⟩
  · exact mem_of_find? ((hfind _).symm.trans (find?_of_mem h.nodup hfield))
  · exact mem_of_find? ((hfind _).trans (find?_of_mem h'.nodup hfield))

/-- What is found after inserting many is the new value if there is one. -/
theorem find?_insertAll {entries : List (String × α)} (h : (entries.map Prod.fst).Nodup)
    (fields : List (String × α)) :
    find? name (insertAll fields entries) = (find? name entries).or (find? name fields) := by
  cases hfind : find? name entries with
  | none =>
    refine find?_insertAll_of_ne (fun entry hentry hname => ?_) fields
    exact find?_eq_none_iff.1 hfind (List.mem_map.2 ⟨entry, hentry, hname⟩)
  | some value => exact find?_insertAll_of_mem h (mem_of_find? hfind) fields

end Fields

/-! ## Parts of trees -/

namespace Json

theorem IsTree.item {items : List Json} (h : IsTree (.array items)) :
    ∀ item ∈ items, item.IsTree := fun item hitem part hpart =>
  h part (List.mem_cons_of_mem _ (itemParts_eq items ▸ List.mem_flatMap.2 ⟨item, hitem, hpart⟩))

theorem IsTree.member {members : List (String × Json)} (h : IsTree (.object members)) :
    ∀ member ∈ members, member.2.IsTree := fun member hmember part hpart =>
  h part (List.mem_cons_of_mem _
    (memberParts_eq members ▸ List.mem_flatMap.2 ⟨member, hmember, hpart⟩))

theorem IsTree.find? {name : String} {member : Json} {members : List (String × Json)}
    (h : IsTree (.object members)) (hfind : Fields.find? name members = some member) :
    member.IsTree :=
  h.member _ (Fields.mem_of_find? hfind)

theorem IsTree.length_lt {items : List Json} (h : IsTree (.array items)) :
    (items.length : Int) < wordLimit :=
  h _ (List.mem_cons_self ..)

theorem IsTree.sorted {members : List (String × Json)} (h : IsTree (.object members)) :
    Fields.Sorted members :=
  h _ (List.mem_cons_self ..)

theorem IsTree.isFinite_ofInt {n : Int} (h : IsTree (.integer n)) :
    (Float.ofInt n).isFinite = true := by
  obtain ⟨hlow, hhigh⟩ := h _ (List.mem_cons_self ..)
  exact Decimal.isFinite_ofInt (by unfold wordLimit at hlow; omega)
    (by unfold wordLimit at hhigh; omega)

/-- The value of a tree has finite numbers only. -/
theorem IsTree.floatsFinite_ofJson {j : Json} (h : j.IsTree) :
    (Value.ofJson j).FloatsFinite := by
  induction j using rec' with
  | integer n =>
    rw [Value.ofJson]
    split
    · simp [Value.FloatsFinite, Value.parts]
    · simpa [Value.FloatsFinite, Value.parts] using h.isFinite_ofInt
  | float x =>
    have hx : x.isFinite = true := h _ (List.mem_cons_self ..)
    simpa [Value.ofJson, Value.FloatsFinite, Value.parts] using hx
  | array items ih =>
    rw [Value.ofJson, Value.ofItems_eq, Value.floatsFinite_list_iff]
    intro value hvalue
    obtain ⟨item, hitem, rfl⟩ := List.mem_map.1 hvalue
    exact ih item hitem (h.item item hitem)
  | object members ih =>
    rw [Value.ofJson, Value.ofMembers_eq, Value.floatsFinite_map_iff]
    intro field hfield
    obtain ⟨member, hmember, rfl⟩ := List.mem_map.1 hfield
    exact ih member hmember (h.member member hmember)
  | _ => simp [Value.ofJson, Value.FloatsFinite, Value.parts]

end Json

/-! ## Extra fields -/

namespace Session

/-- The values of the members of a record that have none of the given names. -/
def unmodelled (names : List String) (members : List (String × Json)) : List (String × Value) :=
  Value.ofMembers (members.filter fun member => member.1 ∉ names)

/-- Fields that are kept beside those with the given names: they stand in order, have other names,
and their numbers are finite. -/
structure Kept (names : List String) (extra : List (String × Value)) : Prop where
  sorted : Fields.Sorted extra
  unknown : ∀ entry ∈ extra, entry.1 ∉ names
  finite : ∀ entry ∈ extra, entry.2.FloatsFinite

section Kept

variable {names : List String} {members : List (String × Json)} {name : String}

theorem find?_unmodelled (hname : name ∉ names) :
    Fields.find? name (unmodelled names members) =
      (Fields.find? name members).map Value.ofJson := by
  rw [unmodelled, Value.ofMembers_eq, Fields.find?_map,
    Fields.find?_filter (fun name => decide (name ∉ names)), if_pos (decide_eq_true hname)]

/-- The members of a tree that a record does not model are kept. -/
theorem kept_unmodelled (names : List String) (h : Json.IsTree (.object members)) :
    Kept names (unmodelled names members) := by
  rw [unmodelled, Value.ofMembers_eq]
  refine ⟨List.pairwise_map.2 (h.sorted.filter _), fun entry hentry => ?_, fun entry hentry => ?_⟩
  · obtain ⟨member, hmember, rfl⟩ := List.mem_map.1 hentry
    simpa using (List.mem_filter.1 hmember).2
  · obtain ⟨member, hmember, rfl⟩ := List.mem_map.1 hentry
    exact (h.member member (List.mem_filter.1 hmember).1).floatsFinite_ofJson

variable {known extra : List (String × Value)} {value : Value}

/-- A known field is not hidden by the extra ones. -/
theorem Kept.find?_known (h : Kept (known.map Prod.fst) extra)
    (hknown : (known.map Prod.fst).Nodup) (hmem : (name, value) ∈ known) :
    Fields.find? name (Fields.insertAll (Fields.ofList known) extra) = some value := by
  rw [Fields.find?_insertAll_of_ne, Fields.ofList, Fields.find?_insertAll_of_mem hknown hmem]
  exact fun entry hentry heq => h.unknown entry hentry (heq ▸ List.mem_map_of_mem hmem)

/-- Under all other names stand the extra fields. -/
theorem Kept.find?_extra (h : Kept names extra) (hknown : ∀ entry ∈ known, entry.1 ∈ names)
    (hname : name ∉ names) :
    Fields.find? name (Fields.insertAll (Fields.ofList known) extra) =
      Fields.find? name extra := by
  have hnone : Fields.find? name (Fields.ofList known) = none := by
    refine Fields.find?_insertAll_of_ne (fun entry hentry hentryName => hname ?_) []
    rw [← hentryName]
    exact hknown entry hentry
  rw [Fields.find?_insertAll h.sorted.nodup, hnone, Option.or_none]

/-- The members that a record does not model in the JSON form of its own fields are the extra
ones. -/
theorem Kept.unmodelled_fields (h : Kept (known.map Prod.fst) extra) :
    unmodelled (known.map Prod.fst)
      (Value.fieldsToJson (Fields.insertAll (Fields.ofList known) extra)) = extra := by
  have hfilter : (Fields.insertAll (Fields.ofList known) extra).filter
      (fun field => decide (field.1 ∉ known.map Prod.fst)) = extra := by
    have hsorted := (Fields.sorted_ofList known).insertAll extra
    refine Fields.Sorted.ext (hsorted.filter _) h.sorted fun name => ?_
    rw [Fields.find?_filter fun name => decide (name ∉ known.map Prod.fst)]
    split
    · next hname =>
      exact h.find?_extra (fun entry hentry => List.mem_map_of_mem hentry)
        (of_decide_eq_true hname)
    · next hname =>
      refine (Fields.find?_eq_none_iff.2 fun hmem => ?_).symm
      obtain ⟨entry, hentry, rfl⟩ := List.mem_map.1 hmem
      exact hname (decide_eq_true (h.unknown entry hentry))
  have hback : extra.map (fun field => (field.1, Value.ofJson field.2.toJson)) = extra :=
    Value.map_eq_self_iff.2 fun field hfield =>
      Prod.ext rfl ((Value.ofJson_toJson_iff _).2 (h.finite field hfield))
  rw [unmodelled, Value.ofMembers_eq, Value.fieldsToJson_eq, List.filter_map]
  refine (List.map_map ..).trans (Eq.trans ?_ hback)
  exact congrArg (List.map fun field => (field.1, Value.ofJson field.2.toJson)) hfilter

end Kept

end Session

end DawScript
