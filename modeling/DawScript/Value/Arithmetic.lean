import DawScript.Value.Operator

/-!
# Operators on values

Integers are added, subtracted, multiplied and negated exactly, and a result that is no word is a
fault. Mixed numbers are computed in floating point, and so is every quotient. Order is that of
texts or of numbers as floating-point numbers.
-/

namespace DawScript

/-- How two floating-point numbers compare; a NaN compares with nothing. -/
def compareFloats (a b : Float) : Option Ordering :=
  if a < b then some .lt
  else if a == b then some .eq
  else if b < a then some .gt
  else none

/-- How two texts compare, by the code points of their characters. -/
def compareTexts (a b : String) : Ordering :=
  if a < b then .lt else if a = b then .eq else .gt

namespace Value

/-- Two numbers as floating-point numbers. -/
def floats? (left right : Value) : Option (Float × Float) := do
  let a ← left.float?
  let b ← right.float?
  return (a, b)

/-- The exact integer as a value, or the fault that it is no word. -/
def exactly (op : BinaryOp) (n : Int) : Except EvalFault Value :=
  match word? n with
  | some w => .ok (.int w)
  | none => .error (.overflow op)

/-- Computes in floating point, if both operands are numbers. -/
def inFloats (op : BinaryOp) (f : Float → Float → Float) (left right : Value) :
    Except EvalFault Value :=
  match floats? left right with
  | some (a, b) => .ok (.float (f a b))
  | none => .error (.operandKinds op left.kind right.kind)

/-- Adds numbers and joins texts and lists. -/
def add (left right : Value) : Except EvalFault Value :=
  match left, right with
  | .int a, .int b => exactly .add (a.toInt + b.toInt)
  | .string a, .string b => .ok (.string (a ++ b))
  | .list as, .list bs => .ok (.list (as ++ bs))
  | _, _ => inFloats .add (· + ·) left right

/-- Subtracts numbers. -/
def sub (left right : Value) : Except EvalFault Value :=
  match left, right with
  | .int a, .int b => exactly .sub (a.toInt - b.toInt)
  | _, _ => inFloats .sub (· - ·) left right

/-- Multiplies numbers. -/
def mul (left right : Value) : Except EvalFault Value :=
  match left, right with
  | .int a, .int b => exactly .mul (a.toInt * b.toInt)
  | _, _ => inFloats .mul (· * ·) left right

/-- Divides numbers in floating point. -/
def div (left right : Value) : Except EvalFault Value :=
  match floats? left right with
  | some (a, b) =>
    if b == 0.0 then .error (.divisionByZero left.kind right.kind) else .ok (.float (a / b))
  | none => .error (.operandKinds .div left.kind right.kind)

/-- How two values compare, if they do. -/
def compare? (left right : Value) : Option Ordering :=
  match left, right with
  | .string a, .string b => some (compareTexts a b)
  | _, _ => do
    let (a, b) ← floats? left right
    compareFloats a b

/-- Whether two values stand in an order. -/
def ordered (op : BinaryOp) (holds : Ordering → Bool) (left right : Value) :
    Except EvalFault Value :=
  match compare? left right with
  | some ordering => .ok (.bool (holds ordering))
  | none => .error (.operandKinds op left.kind right.kind)

end Value

/-- The value of an operator for two operands. -/
def BinaryOp.apply (op : BinaryOp) (left right : Value) : Except EvalFault Value :=
  match op with
  | .add => left.add right
  | .sub => left.sub right
  | .mul => left.mul right
  | .div => left.div right
  | .eq => .ok (.bool (left.same right))
  | .ne => .ok (.bool !(left.same right))
  | .lt => Value.ordered op (· == .lt) left right
  | .gt => Value.ordered op (· == .gt) left right
  | .le => Value.ordered op (· != .gt) left right
  | .ge => Value.ordered op (· != .lt) left right
  | .and => .ok (.bool (left.isTruthy && right.isTruthy))
  | .or => .ok (.bool (left.isTruthy || right.isTruthy))

/-- The value of an operator for one operand. -/
def UnaryOp.apply (op : UnaryOp) (operand : Value) : Except EvalFault Value :=
  match op, operand with
  | .not, v => .ok (.bool !v.isTruthy)
  | .neg, .int n => Value.exactly .sub (-n.toInt)
  | .neg, .float x => .ok (.float (-x))
  | .neg, v => .error (.negatedKind v.kind)

end DawScript
