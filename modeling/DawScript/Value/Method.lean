import DawScript.Text.Casing
import DawScript.Value.Operator

/-!
# Methods and functions of values

The methods that expressions call on a value, the functions of one value that combinators apply
to each item, and the names of both.
-/

namespace DawScript

/-- Whether `needle` occurs in a text. -/
def occursIn (needle : List Char) : List Char → Bool
  | [] => needle.isEmpty
  | c :: cs => needle.isPrefixOf (c :: cs) || occursIn needle cs

/-- The methods of values. -/
inductive Method where
  | contains
  | startsWith
  | endsWith
  | lower
  | upper
  | len
deriving DecidableEq, Repr

namespace Method

/-- All methods. -/
def all : List Method := [.contains, .startsWith, .endsWith, .lower, .upper, .len]

/-- The name of a method. -/
def name : Method → String
  | .contains => "contains"
  | .startsWith => "starts_with"
  | .endsWith => "ends_with"
  | .lower => "lower"
  | .upper => "upper"
  | .len => "len"

/-- The method with a name. -/
def ofName? (s : String) : Option Method := all.find? fun m => m.name == s

/-- The fault that a method does not apply to a value. -/
def unsupported (m : Method) (target : Value) (argument : Option Value) : EvalFault :=
  .unsupported m.name target.kind (argument.map Value.kind)

/-- The value of a method with one argument. -/
def applyOne (m : Method) (target argument : Value) : Except EvalFault Value :=
  match m, target, argument with
  | .contains, .string s, .string needle => .ok (.bool (occursIn needle.toList s.toList))
  | .contains, .list items, v => .ok (.bool (items.any (·.same v)))
  | .contains, .map fields, .string name => .ok (.bool (Fields.find? name fields).isSome)
  | .startsWith, .string s, .string a => .ok (.bool (a.toList.isPrefixOf s.toList))
  | .endsWith, .string s, .string a => .ok (.bool (a.toList.isSuffixOf s.toList))
  | _, _, _ => .error (m.unsupported target (some argument))

/-- The value of a method without arguments. -/
def applyNone (m : Method) (target : Value) : Except EvalFault Value :=
  match m, target with
  | .lower, .string s => .ok (.string (Text.lower s))
  | .upper, .string s => .ok (.string (Text.upper s))
  | .len, .string s => .ok (.int (Int64.ofNat s.length))
  | .len, .list items => .ok (.int (Int64.ofNat items.length))
  | .len, .map fields => .ok (.int (Int64.ofNat fields.length))
  | _, _ => .error (m.unsupported target none)

/-- How many arguments a method takes. -/
def arity : Method → Nat
  | .contains | .startsWith | .endsWith => 1
  | .lower | .upper | .len => 0

/-- The value of a method for its arguments, which have to be as many as it takes. -/
def apply (m : Method) (target : Value) (arguments : List Value) : Except EvalFault Value :=
  match m.arity, arguments with
  | 0, [] => m.applyNone target
  | 1, [argument] => m.applyOne target argument
  | expected, _ => .error (.argumentCount m.name expected arguments.length)

end Method

/-- The functions of one value. -/
inductive Builtin where
  | len
  | upper
  | lower
  | abs
deriving DecidableEq, Repr

namespace Builtin

/-- The function with a name. -/
def ofName? : String → Option Builtin
  | "len" => some .len
  | "upper" => some .upper
  | "lower" => some .lower
  | "abs" => some .abs
  | _ => none

/-- The value of a function. -/
def apply (f : Builtin) (item : Value) : Except EvalFault Value :=
  match f, item with
  | .len, v => Method.len.apply v []
  | .upper, v => Method.upper.apply v []
  | .lower, v => Method.lower.apply v []
  | .abs, .int n => match word? n.toInt.natAbs with
    | some w => .ok (.int w)
    | none => .error .absOverflow
  | .abs, .float x => .ok (.float x.abs)
  | .abs, v => .error (.unsupported "abs" v.kind none)

end Builtin

end DawScript
