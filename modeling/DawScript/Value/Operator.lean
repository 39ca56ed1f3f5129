import DawScript.Value.Basic

/-!
# Operators

The operators of expressions with the symbols that stand for them, and why an operator, a method or
a function has no value for its operands.
-/

namespace DawScript

/-- Operators between two operands. -/
inductive BinaryOp where
  | add
  | sub
  | mul
  | div
  | eq
  | ne
  | lt
  | gt
  | le
  | ge
  | and
  | or
deriving DecidableEq, Repr

/-- Operators before one operand. -/
inductive UnaryOp where
  | not
  | neg
deriving DecidableEq, Repr

namespace BinaryOp

/-- All operators between two operands. -/
def all : List BinaryOp := [.add, .sub, .mul, .div, .eq, .ne, .lt, .gt, .le, .ge, .and, .or]

/-- The symbol of an operator. -/
def symbol : BinaryOp → String
  | .add => "+"
  | .sub => "-"
  | .mul => "*"
  | .div => "/"
  | .eq => "=="
  | .ne => "!="
  | .lt => "<"
  | .gt => ">"
  | .le => "<="
  | .ge => ">="
  | .and => "and"
  | .or => "or"

/-- The operator with a symbol. -/
def ofSymbol? (s : String) : Option BinaryOp := all.find? fun op => op.symbol == s

/-- No two operators have the same symbol: each is found by its own. -/
theorem ofSymbol?_symbol (op : BinaryOp) : ofSymbol? op.symbol = some op := by
  cases op <;> rfl

end BinaryOp

/-! ## Faults of evaluation -/

/-- Why an evaluation fails. -/
inductive EvalFault where
  | unknownOperator (symbol : String)
  | overflow (op : BinaryOp)
  | absOverflow
  | operandKinds (op : BinaryOp) (left right : Value.Kind)
  | negatedKind (operand : Value.Kind)
  | divisionByZero (left right : Value.Kind)
  | argumentCount (method : String) (expected got : Nat)
  | unsupported (method : String) (target : Value.Kind) (argument : Option Value.Kind)
  | functionNotValue (name : String)
  | notFunction (written : String)
deriving DecidableEq, Repr

/-- The wording of a fault of evaluation. -/
def EvalFault.message : EvalFault → String
  | .unknownOperator symbol => "unknown operator: " ++ symbol
  | .overflow op => "integer overflow in '" ++ op.symbol ++ "'"
  | .absOverflow => "integer overflow in abs"
  | .operandKinds op left right =>
    "unsupported operand kinds for '" ++ op.symbol ++ "': " ++ left.text ++ " and " ++ right.text
  | .negatedKind operand => "unsupported operand kind for '-': " ++ operand.text
  | .divisionByZero left right => "division by zero: " ++ left.text ++ " / " ++ right.text
  | .argumentCount method expected got =>
    method ++ " expects " ++ toString expected ++ " argument(s), got " ++ toString got
  | .unsupported method target none => method ++ " is not supported on " ++ target.text
  | .unsupported method target (some argument) =>
    method ++ " is not supported on " ++ target.text ++ " with " ++ argument.text
  | .functionNotValue name => "function reference @" ++ name ++ " is not a value"
  | .notFunction written => "reduce expects a function reference, got " ++ written

end DawScript
