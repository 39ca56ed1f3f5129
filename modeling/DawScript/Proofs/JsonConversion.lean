import DawScript.Value.Json

/-!
# Values as JSON and back

A value is written to whatever takes its parts, a JSON tree or a text (`Value.writeTo`); the tree
written is the JSON value of the value, and the text written is that of its JSON value. Reading by
the first kind that accepts is reading by form. What is lost on the way to JSON and back are the
numbers that are not finite, and on the way from JSON and back the integers that are no words
(`json_conversions`).
-/

set_option autoImplicit false

namespace DawScript

/-! ## Parts -/

namespace Value

/-- Induction on values. -/
@[elab_as_elim]
theorem rec' {motive : Value → Prop} (null : motive .null) (bool : ∀ b, motive (.bool b))
    (int : ∀ n, motive (.int n)) (float : ∀ x, motive (.float x))
    (string : ∀ s, motive (.string s))
    (list : ∀ items, (∀ item ∈ items, motive item) → motive (.list items))
    (map : ∀ fields, (∀ field ∈ fields, motive field.2) → motive (.map fields)) : ∀ v, motive v
  | .null => null
  | .bool b => bool b
  | .int n => int n
  | .float x => float x
  | .string s => string s
  | .list items => list items fun item _ =>
    rec' null bool int float string list map item
  | .map fields => map fields fun field _ =>
    rec' null bool int float string list map field.2
termination_by v => sizeOf v
decreasing_by
  · have := List.sizeOf_lt_of_mem ‹item ∈ items›
    simp only [Value.list.sizeOf_spec]
    omega
  · have := List.sizeOf_lt_of_mem ‹field ∈ fields›
    obtain ⟨name, value⟩ := field
    simp only [Value.map.sizeOf_spec, Prod.mk.sizeOf_spec] at *
    omega

mutual

/-- A value and all that it holds, at any depth. -/
def parts : Value → List Value
  | .list items => .list items :: itemParts items
  | .map fields => .map fields :: fieldParts fields
  | scalar => [scalar]

/-- The parts of the items of a list. -/
def itemParts : List Value → List Value
  | [] => []
  | item :: rest => parts item ++ itemParts rest

/-- The parts of the fields of a map. -/
def fieldParts : List (String × Value) → List Value
  | [] => []
  | (_, value) :: rest => parts value ++ fieldParts rest

end

theorem itemParts_eq (items : List Value) : itemParts items = items.flatMap parts := by
  induction items with
  | nil => rfl
  | cons item rest ih => rw [itemParts, ih, List.flatMap_cons]

theorem fieldParts_eq (fields : List (String × Value)) :
    fieldParts fields = fields.flatMap fun field => field.2.parts := by
  induction fields with
  | nil => rfl
  | cons field rest ih => rw [fieldParts, ih, List.flatMap_cons]

end Value

namespace Json

/-- Induction on JSON values. -/
@[elab_as_elim]
theorem rec' {motive : Json → Prop} (null : motive .null) (bool : ∀ b, motive (.bool b))
    (integer : ∀ n, motive (.integer n)) (float : ∀ x, motive (.float x))
    (string : ∀ s, motive (.string s))
    (array : ∀ items, (∀ item ∈ items, motive item) → motive (.array items))
    (object : ∀ members, (∀ member ∈ members, motive member.2) → motive (.object members)) :
    ∀ j, motive j
  | .null => null
  | .bool b => bool b
  | .integer n => integer n
  | .float x => float x
  | .string s => string s
  | .array items => array items fun item _ =>
    rec' null bool integer float string array object item
  | .object members => object members fun member _ =>
    rec' null bool integer float string array object member.2
termination_by j => sizeOf j
decreasing_by
  · have := List.sizeOf_lt_of_mem ‹item ∈ items›
    simp only [Json.array.sizeOf_spec]
    omega
  · have := List.sizeOf_lt_of_mem ‹member ∈ members›
    obtain ⟨name, value⟩ := member
    simp only [Json.object.sizeOf_spec, Prod.mk.sizeOf_spec] at *
    omega

mutual

/-- A JSON value and all that it holds, at any depth. -/
def parts : Json → List Json
  | .array items => .array items :: itemParts items
  | .object members => .object members :: memberParts members
  | scalar => [scalar]

/-- The parts of the items of an array. -/
def itemParts : List Json → List Json
  | [] => []
  | item :: rest => parts item ++ itemParts rest

/-- The parts of the members of an object. -/
def memberParts : List (String × Json) → List Json
  | [] => []
  | (_, value) :: rest => parts value ++ memberParts rest

end

theorem itemParts_eq (items : List Json) : itemParts items = items.flatMap parts := by
  induction items with
  | nil => rfl
  | cons item rest ih => rw [itemParts, ih, List.flatMap_cons]

theorem memberParts_eq (members : List (String × Json)) :
    memberParts members = members.flatMap fun member => member.2.parts := by
  induction members with
  | nil => rfl
  | cons member rest ih => rw [memberParts, ih, List.flatMap_cons]

/-- What a single part of a JSON value can be: integers have sixty-four bits, with or without a
sign, other numbers are finite, an array has fewer items than there are words, and an object has
each name once and in ascending order. -/
def Sound : Json → Prop
  | .integer n => -wordLimit ≤ n ∧ n < 2 * wordLimit
  | .float x => x.isFinite = true
  | .array items => (items.length : Int) < wordLimit
  | .object members => Fields.Sorted members
  | _ => True

/-- All parts of a JSON value are what they can be. -/
def IsTree (j : Json) : Prop := ∀ part ∈ j.parts, part.Sound

instance : DecidablePred Sound
  | .integer n => inferInstanceAs (Decidable (-wordLimit ≤ n ∧ n < 2 * wordLimit))
  | .float x => inferInstanceAs (Decidable (x.isFinite = true))
  | .array items => inferInstanceAs (Decidable ((items.length : Int) < wordLimit))
  | .object members => inferInstanceAs (Decidable (members.Pairwise fun a b => a.1 < b.1))
  | .null | .bool _ | .string _ => inferInstanceAs (Decidable True)

instance (j : Json) : Decidable j.IsTree :=
  inferInstanceAs (Decidable (∀ part ∈ j.parts, part.Sound))

end Json

/-! ## Conversions as maps -/

namespace Value

@[simp] theorem itemsToJson_eq (items : List Value) : itemsToJson items = items.map toJson := by
  induction items with
  | nil => rfl
  | cons item rest ih => rw [itemsToJson, ih, List.map_cons]

@[simp] theorem fieldsToJson_eq (fields : List (String × Value)) :
    fieldsToJson fields = fields.map fun field => (field.1, field.2.toJson) := by
  induction fields with
  | nil => rfl
  | cons field rest ih => rw [fieldsToJson, ih, List.map_cons]

@[simp] theorem ofItems_eq (items : List Json) : ofItems items = items.map ofJson := by
  induction items with
  | nil => rfl
  | cons item rest ih => rw [ofItems, ih, List.map_cons]

@[simp] theorem ofMembers_eq (members : List (String × Json)) :
    ofMembers members = members.map fun member => (member.1, ofJson member.2) := by
  induction members with
  | nil => rfl
  | cons member rest ih => rw [ofMembers, ih, List.map_cons]

/-! ## Writing -/

/-- What a value is written to: how each kind of value is taken, a list and a map when their parts
are written already. -/
structure Writer (α : Type) where
  null : α
  bool : Bool → α
  int : Int64 → α
  float : Float → α
  string : String → α
  list : List α → α
  map : List (String × α) → α

variable {α : Type}

mutual

/-- Writes a value, each of its parts by its kind. -/
def writeTo (w : Writer α) : Value → α
  | .null => w.null
  | .bool b => w.bool b
  | .int n => w.int n
  | .float x => w.float x
  | .string s => w.string s
  | .list items => w.list (writeItems w items)
  | .map fields => w.map (writeFields w fields)

/-- Writes the items of a list. -/
def writeItems (w : Writer α) : List Value → List α
  | [] => []
  | item :: rest => writeTo w item :: writeItems w rest

/-- Writes the fields of a map. -/
def writeFields (w : Writer α) : List (String × Value) → List (String × α)
  | [] => []
  | (name, value) :: rest => (name, writeTo w value) :: writeFields w rest

end

/-- Writes a JSON tree. A tree has no numbers that are not finite. -/
def Writer.tree : Writer Json where
  null := .null
  bool := .bool
  int n := .integer n.toInt
  float x := if x.isFinite then .float x else .null
  string := .string
  list := .array
  map := .object

/-- Writes JSON text on one line. -/
def Writer.text : Writer String where
  null := "null"
  bool b := if b then "true" else "false"
  int n := toString n.toInt
  float := Json.floatText
  string := Json.stringText
  list items := "[" ++ ",".intercalate items ++ "]"
  map members := "\x7b" ++
    ",".intercalate (members.map fun (name, text) => Json.stringText name ++ ":" ++ text) ++ "\x7d"

theorem writeItems_eq (w : Writer α) (items : List Value) :
    writeItems w items = items.map (writeTo w) := by
  induction items with
  | nil => rfl
  | cons item rest ih => rw [writeItems, ih, List.map_cons]

theorem writeFields_eq (w : Writer α) (fields : List (String × Value)) :
    writeFields w fields = fields.map fun field => (field.1, writeTo w field.2) := by
  induction fields with
  | nil => rfl
  | cons field rest ih => rw [writeFields, ih, List.map_cons]

/-- The tree that is written of a value is its JSON value. -/
theorem writeTo_tree (v : Value) : writeTo .tree v = toJson v := by
  induction v using rec' with
  | list items ih =>
    rw [writeTo, toJson, writeItems_eq, itemsToJson_eq, List.map_congr_left ih]
    rfl
  | map fields ih =>
    rw [writeTo, toJson, writeFields_eq, fieldsToJson_eq]
    exact congrArg Json.object (List.map_congr_left fun field hfield => by rw [ih field hfield])
  | _ => rfl

/-- The text that is written of a value is that of its JSON value. -/
theorem writeTo_text (v : Value) : writeTo .text v = v.toJson.compact := by
  have hitems (items : List Json) : Json.compactItems items = items.map Json.compact := by
    induction items with
    | nil => rfl
    | cons item rest ih => rw [Json.compactItems, ih, List.map_cons]
  have hmembers (members : List (String × Json)) : Json.compactMembers members =
      members.map fun member => Json.stringText member.1 ++ ":" ++ member.2.compact := by
    induction members with
    | nil => rfl
    | cons member rest ih => rw [Json.compactMembers, ih, List.map_cons]
  induction v using rec' with
  | float x =>
    rw [toJson, writeTo]
    split
    · rfl
    · next h =>
      simp only [Writer.text, Json.floatText, h, Bool.false_eq_true, if_false, Json.compact]
  | list items ih =>
    rw [writeTo, toJson, writeItems_eq, itemsToJson_eq, Json.compact, hitems, List.map_map,
      List.map_congr_left ih]
    rfl
  | map fields ih =>
    rw [writeTo, toJson, writeFields_eq, fieldsToJson_eq, Json.compact, hmembers, List.map_map]
    have hparts : (fields.map fun field => (field.1, writeTo .text field.2)) =
        fields.map fun field => (field.1, field.2.toJson.compact) :=
      List.map_congr_left fun field hfield => by rw [ih field hfield]
    rw [hparts]
    simp only [Writer.text, List.map_map, Function.comp_def]
  | _ => rfl

/-- Writing text without a JSON value in between is writing to a text. -/
theorem written_eq_writeTo (v : Value) : written v = writeTo .text v := by
  have hitems (items : List Value) : writtenItems items = items.map written := by
    induction items with
    | nil => rfl
    | cons item rest ih => rw [writtenItems, ih, List.map_cons]
  have hfields (fields : List (String × Value)) : writtenFields fields =
      fields.map fun field => Json.stringText field.1 ++ ":" ++ written field.2 := by
    induction fields with
    | nil => rfl
    | cons field rest ih => rw [writtenFields, ih, List.map_cons]
  induction v using rec' with
  | list items ih =>
    rw [written, writeTo, hitems, writeItems_eq, List.map_congr_left ih]
    rfl
  | map fields ih =>
    have hparts : (fields.map fun field => Json.stringText field.1 ++ ":" ++ written field.2) =
        fields.map fun field => Json.stringText field.1 ++ ":" ++ writeTo .text field.2 :=
      List.map_congr_left fun field hfield => by rw [ih field hfield]
    rw [written, writeTo, hfields, writeFields_eq, hparts]
    simp only [Writer.text, List.map_map, Function.comp_def]
  | _ => rfl

/-! ## Reading -/

/-- A list is read from an array whose items are all read. -/
def readList? : Json → Option Value
  | .array items => (readItems? items).map .list
  | _ => none

/-- A map is read from an object whose members are all read. -/
def readMap? : Json → Option Value
  | .object members => (readMembers? members).map .map
  | _ => none

/-- The kinds of values are tried one after the other, lists and maps last. -/
theorem read?_eq_first (j : Json) :
    read? j = (readScalar? j).or ((readList? j).or (readMap? j)) := by
  cases j <;> simp [read?, readScalar?, readNull?, readBool?, readInt?, readFloat?, readString?,
    readList?, readMap?]

/-- The first kind of value that accepts a JSON value makes of it what its form does. -/
theorem read?_eq (j : Json) : read? j = some (ofJson j) := by
  induction j using Json.rec' with
  | integer n =>
    rw [read?, readScalar?, ofJson]
    · cases hword : word? n <;> simp [readNull?, readBool?, readInt?, readFloat?, hword]
    all_goals nofun
  | array items ih =>
    have hitems : readItems? items = some (items.map ofJson) := by
      induction items with
      | nil => rfl
      | cons item rest ihItems =>
        rw [readItems?, ih item List.mem_cons_self,
          ihItems fun other hother => ih other (List.mem_cons_of_mem _ hother)]
        rfl
    rw [read?, hitems, ofJson, ofItems_eq]
    rfl
  | object members ih =>
    have hmembers : readMembers? members =
        some (members.map fun member => (member.1, ofJson member.2)) := by
      induction members with
      | nil => rfl
      | cons member rest ihMembers =>
        rw [readMembers?, ih member List.mem_cons_self,
          ihMembers fun other hother => ih other (List.mem_cons_of_mem _ hother)]
        rfl
    rw [read?, hmembers, ofJson, ofMembers_eq]
    rfl
  | _ => rfl

/-! ## There and back -/

/-- A value has all its floating-point numbers finite. -/
def FloatsFinite (v : Value) : Prop := ∀ x, .float x ∈ v.parts → x.isFinite = true

theorem floatsFinite_list_iff {items : List Value} :
    FloatsFinite (.list items) ↔ ∀ item ∈ items, item.FloatsFinite := by
  simp only [FloatsFinite, parts, itemParts_eq, List.mem_cons, reduceCtorEq, false_or,
    List.mem_flatMap]
  exact ⟨fun h item hitem x hx => h x ⟨item, hitem, hx⟩,
    fun h x ⟨item, hitem, hx⟩ => h item hitem x hx⟩

theorem floatsFinite_map_iff {fields : List (String × Value)} :
    FloatsFinite (.map fields) ↔ ∀ field ∈ fields, field.2.FloatsFinite := by
  simp only [FloatsFinite, parts, fieldParts_eq, List.mem_cons, reduceCtorEq, false_or,
    List.mem_flatMap]
  exact ⟨fun h field hfield x hx => h x ⟨field, hfield, hx⟩,
    fun h x ⟨field, hfield, hx⟩ => h field hfield x hx⟩

/-- A list is unchanged by a map exactly if its items are. -/
theorem map_eq_self_iff {β : Type} {f : β → β} {items : List β} :
    items.map f = items ↔ ∀ item ∈ items, f item = item := by
  conv => lhs; rhs; rw [← List.map_id items]
  exact List.map_inj_left

/-- A value comes back from JSON exactly if no number in it is infinite or no number at all. -/
theorem ofJson_toJson_iff (v : Value) : ofJson (toJson v) = v ↔ v.FloatsFinite := by
  induction v using rec' with
  | int n => simp [toJson, ofJson, word?_toInt, FloatsFinite, parts]
  | float x =>
    rw [toJson]
    split <;> simp_all [ofJson, FloatsFinite, parts]
  | list items ih =>
    rw [toJson, ofJson, itemsToJson_eq, ofItems_eq, List.map_map, floatsFinite_list_iff,
      Value.list.injEq, map_eq_self_iff]
    exact forall₂_congr ih
  | map fields ih =>
    rw [toJson, ofJson, fieldsToJson_eq, ofMembers_eq, List.map_map, floatsFinite_map_iff,
      Value.map.injEq, map_eq_self_iff]
    exact forall₂_congr fun field hfield => by simp [Prod.ext_iff, ih field hfield]
  | _ => simp [toJson, ofJson, FloatsFinite, parts]

end Value

namespace Json

/-- A JSON value has integers that are words and other numbers that are finite. -/
def NumbersFit (j : Json) : Prop :=
  (∀ n, .integer n ∈ j.parts → fitsWord n = true) ∧ ∀ x, .float x ∈ j.parts → x.isFinite = true

theorem numbersFit_array_iff {items : List Json} :
    NumbersFit (.array items) ↔ ∀ item ∈ items, item.NumbersFit := by
  simp only [NumbersFit, parts, itemParts_eq, List.mem_cons, reduceCtorEq, false_or,
    List.mem_flatMap]
  exact ⟨fun h item hitem => ⟨fun n hn => h.1 n ⟨item, hitem, hn⟩,
      fun x hx => h.2 x ⟨item, hitem, hx⟩⟩,
    fun h => ⟨fun n ⟨item, hitem, hn⟩ => (h item hitem).1 n hn,
      fun x ⟨item, hitem, hx⟩ => (h item hitem).2 x hx⟩⟩

theorem numbersFit_object_iff {members : List (String × Json)} :
    NumbersFit (.object members) ↔ ∀ member ∈ members, member.2.NumbersFit := by
  simp only [NumbersFit, parts, memberParts_eq, List.mem_cons, reduceCtorEq, false_or,
    List.mem_flatMap]
  exact ⟨fun h member hmember => ⟨fun n hn => h.1 n ⟨member, hmember, hn⟩,
      fun x hx => h.2 x ⟨member, hmember, hx⟩⟩,
    fun h => ⟨fun n ⟨member, hmember, hn⟩ => (h member hmember).1 n hn,
      fun x ⟨member, hmember, hx⟩ => (h member hmember).2 x hx⟩⟩

/-- A JSON value comes back from its value exactly if its integers are words and its other
numbers finite. -/
theorem toJson_ofJson_iff (j : Json) : (Value.ofJson j).toJson = j ↔ j.NumbersFit := by
  induction j using rec' with
  | integer n =>
    rw [Value.ofJson]
    cases hword : word? n with
    | some w =>
      have hn := word?_eq_some_iff.1 hword
      subst hn
      simp [Value.toJson, NumbersFit, parts, fitsWord_toInt]
    | none =>
      have hfits : ¬ fitsWord n = true := by
        rw [fitsWord_iff]
        have := word?_eq_none_iff.1 hword
        omega
      have hne : Value.toJson (.float (Float.ofInt n)) ≠ .integer n := by
        rw [Value.toJson]
        split <;> nofun
      exact iff_of_false hne fun h => hfits (h.1 n (by simp [parts]))
  | float x =>
    rw [Value.ofJson, Value.toJson]
    split <;> simp_all [NumbersFit, parts]
  | array items ih =>
    rw [Value.ofJson, Value.toJson, Value.ofItems_eq, Value.itemsToJson_eq, List.map_map,
      numbersFit_array_iff, Json.array.injEq, Value.map_eq_self_iff]
    exact forall₂_congr ih
  | object members ih =>
    rw [Value.ofJson, Value.toJson, Value.ofMembers_eq, Value.fieldsToJson_eq, List.map_map,
      numbersFit_object_iff, Json.object.injEq, Value.map_eq_self_iff]
    exact forall₂_congr fun member hmember => by simp [Prod.ext_iff, ih member hmember]
  | _ => simp [Value.toJson, Value.ofJson, NumbersFit, parts]

/-- The JSON value of a value has such numbers only. -/
theorem numbersFit_toJson (v : Value) : v.toJson.NumbersFit := by
  induction v using Value.rec' with
  | int n => simp [Value.toJson, NumbersFit, parts, fitsWord_toInt]
  | float x =>
    rw [Value.toJson]
    split <;> simp_all [NumbersFit, parts]
  | list items ih =>
    rw [Value.toJson, Value.itemsToJson_eq, numbersFit_array_iff]
    exact List.forall_mem_map.2 ih
  | map fields ih =>
    rw [Value.toJson, Value.fieldsToJson_eq, numbersFit_object_iff]
    exact List.forall_mem_map.2 ih
  | _ => simp [Value.toJson, NumbersFit, parts]

/-- The numbers of a tree fit exactly if none of its integers is too large for a word. -/
theorem IsTree.numbersFit_iff {j : Json} (h : j.IsTree) :
    j.NumbersFit ↔ ∀ n, .integer n ∈ j.parts → n < wordLimit :=
  ⟨fun hfit n hn => (fitsWord_iff.1 (hfit.1 n hn)).2,
    fun hlt => ⟨fun n hn => fitsWord_iff.2 ⟨(h _ hn).1, hlt n hn⟩, fun _ hx => h _ hx⟩⟩

end Json

/-! ## By way of JSON -/

namespace Value

variable {v : Value}

/-- What JSON leaves of a value has the same JSON value. -/
@[simp] theorem toJson_viaJson (v : Value) : v.viaJson.toJson = v.toJson :=
  (Json.toJson_ofJson_iff _).2 (Json.numbersFit_toJson v)

/-- JSON leaves finite numbers only. -/
theorem floatsFinite_viaJson (v : Value) : v.viaJson.FloatsFinite :=
  (ofJson_toJson_iff _).1 (congrArg ofJson v.toJson_viaJson)

/-- JSON leaves all of a value whose numbers are finite. -/
theorem FloatsFinite.viaJson (h : v.FloatsFinite) : v.viaJson = v :=
  (ofJson_toJson_iff v).2 h

theorem viaJson_int (n : Int64) : (int n).viaJson = .int n := by
  rw [viaJson, toJson, ofJson, word?_toInt]

theorem viaJson_map (fields : List (String × Value)) :
    (map fields).viaJson = .map (fields.map fun field => (field.1, field.2.viaJson)) := by
  rw [viaJson, toJson, ofJson, fieldsToJson_eq, ofMembers_eq, List.map_map]
  rfl

end Value

/-- The conversions between values and JSON agree and are inverse: the tree written of a value is
its JSON value, whose text is the text written of it; the first kind of value that accepts a
tree, in their order, makes of it what its form does; a value comes back from JSON exactly if all
its floating-point numbers are finite, and a tree comes back from its value exactly if none of its
integers is too large for a word. -/
theorem json_conversions :
    (∀ v : Value, v.writeTo .tree = v.toJson ∧ v.written = v.toJson.compact) ∧
    (∀ j, Value.read? j =
        (Value.readScalar? j).or ((Value.readList? j).or (Value.readMap? j)) ∧
      Value.read? j = some (Value.ofJson j)) ∧
    (∀ v, Value.ofJson v.toJson = v ↔ ∀ x, .float x ∈ v.parts → x.isFinite = true) ∧
    (∀ j : Json, j.IsTree →
      ((Value.ofJson j).toJson = j ↔ ∀ n, .integer n ∈ j.parts → n < wordLimit)) :=
  ⟨fun v => ⟨v.writeTo_tree, v.written_eq_writeTo.trans v.writeTo_text⟩,
    fun j => ⟨Value.read?_eq_first j, Value.read?_eq j⟩, Value.ofJson_toJson_iff,
    fun j h => (Json.toJson_ofJson_iff j).trans h.numbersFit_iff⟩

/-- Of two trees with adjacent integers, the one with the least integer too large for a word does
not come back and the other does. -/
theorem json_conversions_wordLimit :
    (Value.ofJson (.array [.integer wordLimit, .float 0.5])).toJson ≠
      .array [.integer wordLimit, .float 0.5] ∧
    (Value.ofJson (.array [.integer (wordLimit - 1), .float 0.5])).toJson =
      .array [.integer (wordLimit - 1), .float 0.5] := by
  have hback := json_conversions.2.2.2
  refine ⟨fun h => ?_, (hback _ (by decide)).2 fun n hn => ?_⟩
  · have hlt := (hback _ (by decide)).1 h wordLimit
      (by simp [Json.parts, Json.itemParts])
    exact absurd hlt (by decide)
  · simp only [Json.parts, Json.itemParts, List.append_nil, List.mem_cons, List.cons_append,
      List.nil_append, reduceCtorEq, Json.integer.injEq, List.not_mem_nil, or_false, false_or] at hn
    omega

end DawScript
