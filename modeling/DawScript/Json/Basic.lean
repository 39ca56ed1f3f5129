import DawScript.Decimal.Text
import DawScript.Fields

/-!
# JSON values

Numbers keep whether they are integers. The members of an object stand in ascending order of
their names, each name once. Values are written either on one line without spaces, or with one item
or member a line and two spaces of indentation a level.
-/

namespace DawScript

/-- A JSON value. -/
inductive Json where
  | null
  | bool (b : Bool)
  | integer (n : Int)
  | float (x : Float)
  | string (s : String)
  | array (items : List Json)
  | object (members : List (String × Json))
deriving Inhabited

namespace Json

/-- The value of a member of an object. -/
def member? (name : String) : Json → Option Json
  | .object members => Fields.find? name members
  | _ => none

/-- Whether a value is an object. -/
def isObject : Json → Bool
  | .object _ => true
  | _ => false

/-! ## JSON text -/

/-- A lower-case hexadecimal number with at least four digits. -/
def fourHexDigits (n : Nat) : List Char :=
  let digits := Nat.toDigits 16 n
  List.replicate (4 - digits.length) '0' ++ digits

/-- How a character is written in a JSON string: the quote, the backslash and the characters below
the space are escaped. -/
def escapedChar (c : Char) : List Char :=
  if c = '"' then ['\\', '"']
  else if c = '\\' then ['\\', '\\']
  else if c = '\x08' then ['\\', 'b']
  else if c = '\x0c' then ['\\', 'f']
  else if c = '\n' then ['\\', 'n']
  else if c = '\r' then ['\\', 'r']
  else if c = '\t' then ['\\', 't']
  else if c.toNat < 0x20 then ['\\', 'u'] ++ fourHexDigits c.toNat
  else [c]

/-- A JSON string with its quotes. -/
def stringText (s : String) : String :=
  String.ofList ('"' :: s.toList.flatMap escapedChar ++ ['"'])

/-- A JSON number with a fraction or an exponent; what is not finite has no number. -/
def floatText (x : Float) : String :=
  if x.isFinite then Decimal.Layout.json.finite x else "null"

mutual

/-- A value on one line. -/
def compact : Json → String
  | .null => "null"
  | .bool b => if b then "true" else "false"
  | .integer n => toString n
  | .float x => floatText x
  | .string s => stringText s
  | .array items => "[" ++ ",".intercalate (compactItems items) ++ "]"
  | .object members => "\x7b" ++ ",".intercalate (compactMembers members) ++ "\x7d"

/-- The items of an array, each on one line. -/
def compactItems : List Json → List String
  | [] => []
  | item :: rest => compact item :: compactItems rest

/-- The members of an object, each on one line. -/
def compactMembers : List (String × Json) → List String
  | [] => []
  | (name, value) :: rest => (stringText name ++ ":" ++ compact value) :: compactMembers rest

end

/-- The beginning of a line at a depth of indentation. -/
def lineStart (depth : Nat) : String := String.ofList ('\n' :: List.replicate (2 * depth) ' ')

/-- Parts between brackets, one a line; brackets around nothing stay together. -/
def bracketed (opening closing : String) (depth : Nat) : List String → String
  | [] => opening ++ closing
  | parts =>
    opening ++ lineStart (depth + 1) ++ ("," ++ lineStart (depth + 1)).intercalate parts ++
      lineStart depth ++ closing

mutual

/-- A value over several lines, the first of which is indented already. -/
def prettyAt : Nat → Json → String
  | depth, .array items => bracketed "[" "]" depth (prettyItems (depth + 1) items)
  | depth, .object members =>
    bracketed "\x7b" "\x7d" depth (prettyMembers (depth + 1) members)
  | _, scalar => compact scalar

/-- The items of an array at a depth. -/
def prettyItems : Nat → List Json → List String
  | _, [] => []
  | depth, item :: rest => prettyAt depth item :: prettyItems depth rest

/-- The members of an object at a depth. -/
def prettyMembers : Nat → List (String × Json) → List String
  | _, [] => []
  | depth, (name, value) :: rest =>
    (stringText name ++ ": " ++ prettyAt depth value) :: prettyMembers depth rest

end

/-- A value over several lines. -/
def pretty (j : Json) : String := prettyAt 0 j

end Json

end DawScript
