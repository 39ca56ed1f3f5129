import DawScript.Decimal.Text
import DawScript.Fields
import DawScript.Text.Quoted

/-!
# Values

The dynamic values of scripts: what session data, literals, stored symbols and the payloads of
actions are made of. Integers are words of sixty-four bits, and a map holds its fields in
ascending order of their names. A value is shown to the reader with texts in quotes, lists in
brackets, and maps in braces with their names as they are.
-/

namespace DawScript

/-!
## Integers as words

An exact result becomes a word if it is one (`word?_eq_some_iff`); nothing wraps around.
-/

/-- The least integer too large for a word: `2 ^ 63`. -/
def wordLimit : Int := 0x8000000000000000

/-- Whether an integer is a word. -/
def fitsWord (n : Int) : Bool := -wordLimit ≤ n && n < wordLimit

/-- An integer as a word, if it is one. -/
def word? (n : Int) : Option Int64 := if fitsWord n then some (Int64.ofInt n) else none

theorem fitsWord_iff {n : Int} : fitsWord n = true ↔ -wordLimit ≤ n ∧ n < wordLimit := by
  simp [fitsWord]

/-- Every word is one. -/
theorem fitsWord_toInt (w : Int64) : fitsWord w.toInt = true :=
  fitsWord_iff.2 ⟨w.le_toInt, w.toInt_lt⟩

/-- An integer becomes the word with its value, and none when there is no such word. -/
theorem word?_eq_some_iff {n : Int} {w : Int64} : word? n = some w ↔ w.toInt = n := by
  constructor
  · intro h
    simp only [word?] at h
    split at h
    · next hfits =>
      have hrange := fitsWord_iff.1 hfits
      injection h with h
      subst h
      exact Int64.toInt_ofInt_of_le hrange.1 hrange.2
    · cases h
  · intro h
    subst h
    simp [word?, fitsWord_toInt, Int64.ofInt_toInt]

theorem word?_toInt (w : Int64) : word? w.toInt = some w := word?_eq_some_iff.2 rfl

theorem word?_eq_none_iff {n : Int} : word? n = none ↔ n < -wordLimit ∨ wordLimit ≤ n := by
  by_cases h : fitsWord n = true
  · have hrange := fitsWord_iff.1 h
    simp only [word?, h, if_true, reduceCtorEq, false_iff]
    omega
  · have hrange := mt fitsWord_iff.2 h
    simp only [word?, h, Bool.false_eq_true, if_false, true_iff]
    omega

/-! ## Scalars, lists and maps -/

/-- A scalar, a list or a map. -/
inductive Value where
  | null
  | bool (b : Bool)
  | int (n : Int64)
  | float (x : Float)
  | string (s : String)
  | list (items : List Value)
  | map (fields : List (String × Value))
deriving Inhabited

namespace Value

/-- What a value is, without what it holds. -/
inductive Kind where
  | null
  | bool
  | int
  | float
  | string
  | list
  | map
deriving DecidableEq, Repr

/-- The word for a kind in messages. -/
def Kind.text : Kind → String
  | .null => "null"
  | .bool => "bool"
  | .int => "int"
  | .float => "float"
  | .string => "string"
  | .list => "list"
  | .map => "map"

/-- The kind of a value. -/
def kind : Value → Kind
  | .null => .null
  | .bool _ => .bool
  | .int _ => .int
  | .float _ => .float
  | .string _ => .string
  | .list _ => .list
  | .map _ => .map

/-- Whether a value counts as true: it is neither null, false nor zero, nor empty. -/
def isTruthy : Value → Bool
  | .null => false
  | .bool b => b
  | .int n => n != 0
  | .float x => !(x == 0.0)
  | .string s => !s.isEmpty
  | .list items => !items.isEmpty
  | .map fields => !fields.isEmpty

/-- Whether a value is null. -/
def isNull : Value → Bool
  | .null => true
  | _ => false

/-- A number as a floating-point number; an integer is rounded to the nearest one. -/
def float? : Value → Option Float
  | .int n => some (Float.ofInt n.toInt)
  | .float x => some x
  | _ => none

/-- The integer that a value is. -/
def int? : Value → Option Int64
  | .int n => some n
  | _ => none

/-- The truth value that a value is. -/
def bool? : Value → Option Bool
  | .bool b => some b
  | _ => none

/-- The text that a value is. -/
def string? : Value → Option String
  | .string s => some s
  | _ => none

/-- The items of a value that is a list. -/
def list? : Value → Option (List Value)
  | .list items => some items
  | _ => none

/-- The fields of a value that is a map. -/
def map? : Value → Option (List (String × Value))
  | .map fields => some fields
  | _ => none

/-- The field of a map under a name. -/
def field? (name : String) (v : Value) : Option Value := v.map?.bind (Fields.find? name)

mutual

/-- Whether two values are equal: integers and floating-point numbers by their numeric value, all
else by structure. Two integers are compared exactly, other numbers after rounding. -/
def same : Value → Value → Bool
  | .null, .null => true
  | .bool a, .bool b => a == b
  | .int a, .int b => a == b
  | .int a, .float b => Float.ofInt a.toInt == b
  | .float a, .int b => a == Float.ofInt b.toInt
  | .float a, .float b => a == b
  | .string a, .string b => a == b
  | .list as, .list bs => sameItems as bs
  | .map as, .map bs => sameFields as bs
  | _, _ => false

/-- Whether two lists have as many items, equal in pairs. -/
def sameItems : List Value → List Value → Bool
  | [], [] => true
  | a :: as, b :: bs => same a b && sameItems as bs
  | _, _ => false

/-- Whether two maps have the same names with equal values. -/
def sameFields : List (String × Value) → List (String × Value) → Bool
  | [], [] => true
  | (name, a) :: as, (name', b) :: bs => name == name' && same a b && sameFields as bs
  | _, _ => false

end

theorem int?_eq_some_iff {v : Value} {n : Int64} : v.int? = some n ↔ v = .int n := by
  cases v <;> simp [int?]

end Value

/-! ## Values as text -/

/-- Parts with a comma between them. -/
def commaSeparated (parts : List String) : String := ", ".intercalate parts

/-- Parts between brackets. -/
def inBrackets (parts : List String) : String := "[" ++ commaSeparated parts ++ "]"

/-- Parts between braces. -/
def inBraces (parts : List String) : String := "\x7b" ++ commaSeparated parts ++ "\x7d"

namespace Value

mutual

/-- A value as text. -/
def text : Value → String
  | .null => "null"
  | .bool b => if b then "true" else "false"
  | .int n => toString n.toInt
  | .float x => Decimal.shown x
  | .string s => Text.quoted s
  | .list items => inBrackets (itemTexts items)
  | .map fields => inBraces (fieldTexts fields)

/-- The items of a list as texts. -/
def itemTexts : List Value → List String
  | [] => []
  | item :: rest => text item :: itemTexts rest

/-- The fields of a map as texts. -/
def fieldTexts : List (String × Value) → List String
  | [] => []
  | (name, value) :: rest => (name ++ ": " ++ text value) :: fieldTexts rest

end

end Value

end DawScript
