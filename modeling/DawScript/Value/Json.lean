import DawScript.Json.Basic
import DawScript.Value.Basic

/-!
# Values and JSON

A value and a JSON value that say the same. Integers stay integers and other numbers stay
floating-point numbers; a JSON integer that is no word becomes the nearest floating-point number,
and a number that is not finite becomes null.

`Value.ofJson` goes by the form of the JSON value, while `Value.read?` takes the first kind of
value that accepts it; `Value.toJson` builds a JSON value, while `Value.written` writes its text
directly.
-/

namespace DawScript.Value

mutual

/-- The value of a JSON value. -/
def ofJson : Json → Value
  | .null => .null
  | .bool b => .bool b
  | .integer n => match word? n with
    | some w => .int w
    | none => .float (Float.ofInt n)
  | .float x => .float x
  | .string s => .string s
  | .array items => .list (ofItems items)
  | .object members => .map (ofMembers members)

/-- The values of the items of an array. -/
def ofItems : List Json → List Value
  | [] => []
  | item :: rest => ofJson item :: ofItems rest

/-- The values of the members of an object. -/
def ofMembers : List (String × Json) → List (String × Value)
  | [] => []
  | (name, value) :: rest => (name, ofJson value) :: ofMembers rest

end

mutual

/-- The JSON value of a value. -/
def toJson : Value → Json
  | .null => .null
  | .bool b => .bool b
  | .int n => .integer n.toInt
  | .float x => if x.isFinite then .float x else .null
  | .string s => .string s
  | .list items => .array (itemsToJson items)
  | .map fields => .object (fieldsToJson fields)

/-- The JSON values of the items of a list. -/
def itemsToJson : List Value → List Json
  | [] => []
  | item :: rest => toJson item :: itemsToJson rest

/-- The JSON values of the fields of a map. -/
def fieldsToJson : List (String × Value) → List (String × Json)
  | [] => []
  | (name, value) :: rest => (name, toJson value) :: fieldsToJson rest

end

/-- What JSON leaves of a value: the value of its JSON value. -/
def viaJson (v : Value) : Value := ofJson v.toJson

/-! ## Reading by the first kind that accepts -/

/-- Null is read from null alone. -/
def readNull? : Json → Option Value
  | .null => some .null
  | _ => none

/-- A truth value is read from one. -/
def readBool? : Json → Option Value
  | .bool b => some (.bool b)
  | _ => none

/-- An integer is read from a JSON integer that is a word. -/
def readInt? : Json → Option Value
  | .integer n => (word? n).map .int
  | _ => none

/-- A floating-point number is read from any number. -/
def readFloat? : Json → Option Value
  | .integer n => some (.float (Float.ofInt n))
  | .float x => some (.float x)
  | _ => none

/-- A text is read from a string. -/
def readString? : Json → Option Value
  | .string s => some (.string s)
  | _ => none

/-- The first of the scalar kinds, in their order, that accepts a JSON value. -/
def readScalar? (j : Json) : Option Value :=
  (readNull? j).or ((readBool? j).or ((readInt? j).or ((readFloat? j).or (readString? j))))

mutual

/-- The value of the first kind that accepts a JSON value. -/
def read? : Json → Option Value
  | .array items => (readItems? items).map .list
  | .object members => (readMembers? members).map .map
  | scalar => readScalar? scalar

/-- Reads all items of an array. -/
def readItems? : List Json → Option (List Value)
  | [] => some []
  | item :: rest => do
    let value ← read? item
    let others ← readItems? rest
    return value :: others

/-- Reads all members of an object. -/
def readMembers? : List (String × Json) → Option (List (String × Value))
  | [] => some []
  | (name, member) :: rest => do
    let value ← read? member
    let others ← readMembers? rest
    return (name, value) :: others

end

/-! ## Writing without an intermediate JSON value -/

mutual

/-- The JSON text of a value on one line. -/
def written : Value → String
  | .null => "null"
  | .bool b => if b then "true" else "false"
  | .int n => toString n.toInt
  | .float x => Json.floatText x
  | .string s => Json.stringText s
  | .list items => "[" ++ ",".intercalate (writtenItems items) ++ "]"
  | .map fields => "\x7b" ++ ",".intercalate (writtenFields fields) ++ "\x7d"

/-- The JSON texts of the items of a list. -/
def writtenItems : List Value → List String
  | [] => []
  | item :: rest => written item :: writtenItems rest

/-- The JSON texts of the fields of a map. -/
def writtenFields : List (String × Value) → List String
  | [] => []
  | (name, value) :: rest =>
    (Json.stringText name ++ ":" ++ written value) :: writtenFields rest

end

end DawScript.Value
