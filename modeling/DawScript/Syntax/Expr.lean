import DawScript.Value.Operator

/-!
# Expressions and programs

A program is a list of chains, a chain is a list of calls, and a call has a name and arguments.
The calls of a program in the order in which they are written are what is run. The text of an
expression or a call has no parentheses around operands.
-/

namespace DawScript

/-- An argument of a call: a keyword argument if it has a keyword, else a positional one. -/
structure Arg (α : Type) where
  keyword : Option String
  value : α
deriving Repr

/-- An expression. `property` is a path from a root name, empty for a bare name; `method` calls a
method of a value; `call` is a call used for its value; `function` names a function to be applied
by a combinator, with arguments of its own. -/
inductive Expr where
  | literal (v : Value)
  | list (items : List Expr)
  | map (entries : List (String × Expr))
  | property (root : String) (path : List String)
  | binary (op : BinaryOp) (left right : Expr)
  | unary (op : UnaryOp) (operand : Expr)
  | method (target : Expr) (name : String) (arguments : List Expr)
  | call (name : String) (arguments : List (Arg Expr))
  | function (name : String) (arguments : List (Arg Expr))
deriving Inhabited

/-- A call with its arguments in the order in which they are written. -/
structure Call where
  name : String
  arguments : List (Arg Expr)

/-- Calls joined by dots. -/
structure Chain where
  calls : List Call

/-- A script as its chains. -/
structure Program where
  chains : List Chain

/-- The calls of a program in order. -/
def Program.calls (p : Program) : List Call := p.chains.flatMap Chain.calls

namespace Expr

/-- A bare name. -/
def name (s : String) : Expr := .property s []

/-- The name that an expression is, if it is a bare one. -/
def name? : Expr → Option String
  | .property root [] => some root
  | _ => none

/-- The path that a text with dots stands for: its first part is the root. -/
def ofDotted (dotted : String) : Expr :=
  match dotted.splitOn "." with
  | [] => .property "" []
  | root :: path => .property root path

end Expr

/-! ## Expressions and calls as they are written -/

/-- An argument as it is written, from the text of its value. -/
def argumentText (keyword : Option String) (value : String) : String :=
  match keyword with
  | some k => k ++ "=" ++ value
  | none => value

/-- The sign of an operator before its operand. -/
def UnaryOp.mark : UnaryOp → String
  | .not => "not "
  | .neg => "-"

/-- A name followed by its arguments in parentheses. -/
def applied (name : String) (arguments : List String) : String :=
  name ++ "(" ++ commaSeparated arguments ++ ")"

namespace Expr

mutual

/-- An expression as it is written. -/
def text : Expr → String
  | .literal v => v.text
  | .list items => inBrackets (itemTexts items)
  | .map entries => inBraces (entryTexts entries)
  | .property root path => ".".intercalate (root :: path)
  | .binary op left right => text left ++ " " ++ op.symbol ++ " " ++ text right
  | .unary op operand => op.mark ++ text operand
  | .method target name arguments => text target ++ "." ++ applied name (itemTexts arguments)
  | .call name arguments => applied name (argumentTexts arguments)
  | .function name [] => "@" ++ name
  | .function name arguments => "@" ++ applied name (argumentTexts arguments)

/-- The texts of expressions. -/
def itemTexts : List Expr → List String
  | [] => []
  | item :: rest => text item :: itemTexts rest

/-- The texts of the entries of a map. -/
def entryTexts : List (String × Expr) → List String
  | [] => []
  | (name, value) :: rest => (name ++ ": " ++ text value) :: entryTexts rest

/-- The texts of arguments. -/
def argumentTexts : List (Arg Expr) → List String
  | [] => []
  | ⟨keyword, value⟩ :: rest => argumentText keyword (text value) :: argumentTexts rest

end

end Expr

/-- Arguments as they are written, with commas between them. -/
def argumentsText (arguments : List (Arg Expr)) : String :=
  commaSeparated (Expr.argumentTexts arguments)

/-- A call as it is written. -/
def Call.text (c : Call) : String := applied c.name (Expr.argumentTexts c.arguments)

end DawScript
