import DawScript.Decimal.Text
import DawScript.Fields

/-!
# YAML documents

What a YAML text is made of, from its tokens to what its plain scalars stand for. In a document the
aliases are still in place: a name may be anchored more than once, and an alias goes to the anchor
of its name that stands before it.
-/

namespace DawScript.Yaml

/-!
## Tokens

Indentation and the places of simple keys are resolved: blocks begin and end with tokens of their
own, and a key stands after its mark also where the text has none.
-/

/-- How a scalar is written. -/
inductive Style where
  | plain
  | singleQuoted
  | doubleQuoted
  | literal
  | folded
deriving DecidableEq, Repr

/-- A tag as it is written: a handle, which stands for the beginning of the tag, and the rest. The
handle is empty where the tag is given in full. -/
structure TagText where
  handle : String
  suffix : String
deriving DecidableEq, Repr

/-- A token. -/
inductive Token where
  | version (major minor : Nat)
  | handle (name stem : String)
  | documentStart
  | documentEnd
  | blockSequenceStart
  | blockMappingStart
  | blockEnd
  | flowSequenceStart
  | flowSequenceEnd
  | flowMappingStart
  | flowMappingEnd
  | blockEntry
  | flowEntry
  | key
  | value
  | alias (name : String)
  | anchor (name : String)
  | tag (text : TagText)
  | scalar (style : Style) (text : String)
deriving DecidableEq, Repr

/-! ## Nodes -/

/-- A scalar with its tag in full, if it has one. -/
structure Scalar where
  style : Style
  tag : Option String
  text : String
deriving DecidableEq, Repr

/-- The scalar that stands where nothing is written. -/
def Scalar.empty : Scalar := ⟨.plain, none, ""⟩

/-- A node of a document. An alias gives the number of its anchor. -/
inductive Node where
  | scalar (s : Scalar)
  | sequence (items : List Node)
  | mapping (entries : List (Node × Node))
  | alias (anchor : Nat)

/-- The anchors read so far: the numbers of their names, and what the numbers stand for, the last
one first. A collection is told only by not being a scalar. -/
structure Anchors where
  numbers : List (String × Nat) := []
  targets : List (Nat × Option Scalar) := []

/-- Anchors a node. The number of an anchor counts the names before it, so that names anchored
twice leave a number to be given twice, and it is the later node then that it stands for. -/
def Anchors.declare (name : String) (target : Option Scalar) (anchors : Anchors) : Anchors :=
  let number := anchors.numbers.length
  ⟨Fields.insert name number anchors.numbers, (number, target) :: anchors.targets⟩

/-- The number that an alias of a name gives. -/
def Anchors.number? (anchors : Anchors) (name : String) : Option Nat :=
  Fields.find? name anchors.numbers

/-- A document: its node and what its aliases stand for. -/
structure Document where
  root : Node
  anchors : Anchors

/-- The document of a text that has none. -/
def Document.blank : Document := ⟨.scalar .empty, {}⟩

/-- The scalar that a node is, by itself or by an alias. -/
def Document.scalar? (d : Document) : Node → Option Scalar
  | .scalar s => some s
  | .alias anchor => (d.anchors.targets.lookup anchor).join
  | _ => none

/-!
## What plain scalars stand for

A scalar without quotes may stand for nothing, a truth value or a number. All other plain scalars
are texts.
-/

/-- The words for nothing. -/
def nullWords : List String := ["null", "Null", "NULL", "~"]

/-- The words for what is true. -/
def trueWords : List String := ["true", "True", "TRUE"]

/-- The words for what is false. -/
def falseWords : List String := ["false", "False", "FALSE"]

/-- The truth value that a scalar stands for. -/
def truth? (s : String) : Option Bool :=
  if s ∈ trueWords then some true else if s ∈ falseWords then some false else none

/-- The base that a letter after a zero gives. -/
def base? : Char → Option Nat
  | 'x' => some 16
  | 'o' => some 8
  | 'b' => some 2
  | _ => none

/-- Whether a number begins with a needless zero, as no decimal integer does. -/
def hasNeedlessZero : List Char → Bool
  | '0' :: d :: digits => (d :: digits).all Char.isDigit
  | _ => false

/-- An unsigned integer, in decimal digits or with the mark of another base. -/
def natural? (cs : List Char) : Option Nat :=
  match cs with
  | '0' :: letter :: digits => (base? letter).bind fun base => Radix.number? base digits
  | digits => Decimal.natural? digits

/-- The integer that a scalar stands for. -/
def integer? (cs : List Char) : Option Int :=
  let (negative, digits) := Decimal.splitSign cs
  (natural? digits).map fun n => if negative then -(n : Int) else n

/-- The names of what is not finite. -/
def named? (s : String) : Option Float :=
  if s ∈ [".inf", ".Inf", ".INF", "+.inf", "+.Inf", "+.INF"] then some (1.0 / 0.0)
  else if s ∈ ["-.inf", "-.Inf", "-.INF"] then some (-1.0 / 0.0)
  else if s ∈ [".nan", ".NaN", ".NAN"] then some (0.0 / 0.0)
  else none

/-- The floating-point number that a scalar stands for: a finite decimal, or what is not finite by
its name. -/
def float? (s : String) : Option Float :=
  (named? s).or ((Decimal.float? s.toList).filter Float.isFinite)

end DawScript.Yaml
