/-!
# Named fields

Maps from names to values, as lists of pairs in ascending order of the names. The order is that
of code points, and a name stands in a list at most once (`Fields.Sorted`). Inserting keeps the
order, and the value last inserted under a name is the one found (`Fields.find?_insert`).
-/

namespace DawScript.Fields

variable {α : Type}

/-- The value under `name`, if there is one. -/
def find? (name : String) : List (String × α) → Option α
  | [] => none
  | (key, value) :: rest => if key = name then some value else find? name rest

/-- Puts `value` under `name`, at its place in the order and instead of a value already there. -/
def insert (name : String) (value : α) : List (String × α) → List (String × α)
  | [] => [(name, value)]
  | (key, held) :: rest =>
    if name < key then (name, value) :: (key, held) :: rest
    else if name = key then (name, value) :: rest
    else (key, held) :: insert name value rest

/-- Puts all of `entries` into `fields`, one after the other. -/
def insertAll (fields : List (String × α)) (entries : List (String × α)) : List (String × α) :=
  entries.foldl (fun held entry => insert entry.1 entry.2 held) fields

/-- The fields with the given entries; of two entries under one name the later one counts. -/
def ofList (entries : List (String × α)) : List (String × α) := insertAll [] entries

/-- The names stand in strictly ascending order. -/
def Sorted (fields : List (String × α)) : Prop := fields.Pairwise fun a b => a.1 < b.1

@[simp] theorem find?_nil (name : String) : find? name ([] : List (String × α)) = none := rfl

theorem find?_cons (name key : String) (value : α) (rest : List (String × α)) :
    find? name ((key, value) :: rest) = if key = name then some value else find? name rest := rfl

/-- The value inserted is found under its name, and the others are found as before. -/
theorem find?_insert (name key : String) (value : α) (fields : List (String × α)) :
    find? name (insert key value fields) =
      if key = name then some value else find? name fields := by
  induction fields with
  | nil => rfl
  | cons field rest ih =>
    obtain ⟨held, old⟩ := field
    by_cases hlt : key < held
    · simp [insert, hlt, find?_cons]
    · by_cases heq : key = held
      · subst heq
        rw [insert, if_neg hlt, if_pos rfl]
        by_cases hname : key = name <;> simp [find?_cons, hname]
      · simp only [insert, hlt, heq, if_false, find?_cons, ih]
        by_cases hheld : held = name
        · have hne : key ≠ name := fun h => heq (h.trans hheld.symm)
          simp [hheld, hne]
        · simp [hheld]

/-- Every entry after an insertion is the new one or an old one. -/
theorem mem_insert {key : String} {value : α} {entry : String × α} {fields : List (String × α)}
    (h : entry ∈ insert key value fields) : entry = (key, value) ∨ entry ∈ fields := by
  induction fields with
  | nil => exact Or.inl (by simpa [insert] using h)
  | cons field rest ih =>
    obtain ⟨held, old⟩ := field
    rw [insert] at h
    split at h
    · simpa using h
    · split at h
      · rcases List.mem_cons.1 h with h | h
        · exact Or.inl h
        · exact Or.inr (List.mem_cons_of_mem _ h)
      · rcases List.mem_cons.1 h with h | h
        · exact Or.inr (h ▸ List.mem_cons_self)
        · rcases ih h with h | h
          · exact Or.inl h
          · exact Or.inr (List.mem_cons_of_mem _ h)

theorem sorted_nil : Sorted ([] : List (String × α)) := List.Pairwise.nil

/-- Inserting keeps the order. -/
theorem Sorted.insert {fields : List (String × α)} (h : Sorted fields) (key : String) (value : α) :
    Sorted (Fields.insert key value fields) := by
  induction fields with
  | nil => exact List.pairwise_singleton _ _
  | cons field rest ih =>
    obtain ⟨held, old⟩ := field
    have hrest := List.pairwise_cons.1 h
    rw [Fields.insert]
    split
    · next hlt =>
      refine List.pairwise_cons.2 ⟨fun entry hentry => ?_, h⟩
      rcases List.mem_cons.1 hentry with rfl | hmem
      · exact hlt
      · exact String.lt_trans hlt (hrest.1 entry hmem)
    · split
      · next hlt heq =>
        subst heq
        exact List.pairwise_cons.2 ⟨hrest.1, hrest.2⟩
      · next hlt heq =>
        refine List.pairwise_cons.2 ⟨fun entry hentry => ?_, ih hrest.2⟩
        rcases mem_insert hentry with rfl | hmem
        · exact Std.lt_of_le_of_ne (Std.not_lt.1 hlt) (Ne.symm heq)
        · exact hrest.1 entry hmem

/-- Inserting many keeps the order. -/
theorem Sorted.insertAll {fields : List (String × α)} (h : Sorted fields)
    (entries : List (String × α)) : Sorted (Fields.insertAll fields entries) := by
  induction entries generalizing fields with
  | nil => exact h
  | cons entry rest ih => exact ih (h.insert entry.1 entry.2)

/-- Every field after inserting many is a new one or an old one. -/
theorem mem_insertAll {entry : String × α} {entries fields : List (String × α)}
    (h : entry ∈ insertAll fields entries) : entry ∈ entries ∨ entry ∈ fields := by
  induction entries generalizing fields with
  | nil => exact Or.inr h
  | cons first rest ih =>
    rcases ih h with h | h
    · exact Or.inl (List.mem_cons_of_mem _ h)
    · rcases mem_insert h with rfl | h
      · exact Or.inl List.mem_cons_self
      · exact Or.inr h

/-- The fields made of a list are entries of it. -/
theorem mem_of_mem_ofList {entry : String × α} {entries : List (String × α)}
    (h : entry ∈ ofList entries) : entry ∈ entries := by
  rcases mem_insertAll h with h | h
  · exact h
  · cases h

/-- Inserting many leaves what is under other names. -/
theorem find?_insertAll_of_ne {name : String} {entries : List (String × α)}
    (h : ∀ entry ∈ entries, entry.1 ≠ name) (fields : List (String × α)) :
    find? name (insertAll fields entries) = find? name fields := by
  induction entries generalizing fields with
  | nil => rfl
  | cons first rest ih =>
    have hrest := ih (fun entry hentry => h entry (List.mem_cons_of_mem _ hentry))
    rw [insertAll, List.foldl_cons, ← insertAll, hrest, find?_insert,
      if_neg (h first List.mem_cons_self)]

/-- Each of many entries under different names is found after inserting them. -/
theorem find?_insertAll_of_mem {name : String} {value : α} {entries : List (String × α)}
    (hnames : (entries.map Prod.fst).Nodup) (h : (name, value) ∈ entries)
    (fields : List (String × α)) : find? name (insertAll fields entries) = some value := by
  induction entries generalizing fields with
  | nil => cases h
  | cons first rest ih =>
    obtain ⟨hfirst, hrest⟩ := List.nodup_cons.1 hnames
    rw [insertAll, List.foldl_cons, ← insertAll]
    rcases List.mem_cons.1 h with rfl | h
    · rw [find?_insertAll_of_ne, find?_insert, if_pos rfl]
      intro entry hentry heq
      have hmem : entry.1 ∈ rest.map Prod.fst := List.mem_map_of_mem hentry
      rw [heq] at hmem
      exact hfirst hmem
    · exact ih hrest h _

/-- A field that is found is there. -/
theorem mem_of_find? {name : String} {value : α} {fields : List (String × α)}
    (h : find? name fields = some value) : (name, value) ∈ fields := by
  induction fields with
  | nil => cases h
  | cons field rest ih =>
    obtain ⟨key, held⟩ := field
    rw [find?_cons] at h
    split at h
    · next hkey =>
      cases h
      rw [hkey]
      exact List.mem_cons_self
    · exact List.mem_cons_of_mem _ (ih h)

/-- The fields made of a list are in order. -/
theorem sorted_ofList (entries : List (String × α)) : Sorted (ofList entries) :=
  sorted_nil.insertAll entries

end DawScript.Fields
