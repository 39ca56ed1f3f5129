import DawScript.Decimal.Text
import DawScript.Text.Quoted

/-!
# Tokens

The words and signs that scripts are made of, and their names in messages.
-/

namespace DawScript

/-- A place in a script: line and column of a character, both counted from one. -/
structure Position where
  line : Nat
  column : Nat
deriving DecidableEq, Repr

/-- A word or sign of a script. A line end and a semicolon are the same token, and the end of the
script is a token of its own. -/
inductive Token where
  | trueWord
  | falseWord
  | nullWord
  | andWord
  | orWord
  | notWord
  | name (s : String)
  | string (s : String)
  | integer (n : Nat)
  | number (x : Float)
  | leftParen
  | rightParen
  | leftBracket
  | rightBracket
  | leftBrace
  | rightBrace
  | comma
  | dot
  | colon
  | at
  | assign
  | plus
  | minus
  | star
  | slash
  | equal
  | notEqual
  | less
  | greater
  | lessEqual
  | greaterEqual
  | newline
  | endOfScript
deriving DecidableEq, Repr

namespace Token

/-- The name of a token in messages, with what it holds in parentheses. -/
def text : Token → String
  | .trueWord => "True"
  | .falseWord => "False"
  | .nullWord => "Null"
  | .andWord => "And"
  | .orWord => "Or"
  | .notWord => "Not"
  | .name s => "Ident(" ++ Text.quoted s ++ ")"
  | .string s => "Str(" ++ Text.quoted s ++ ")"
  | .integer n => "Integer(" ++ toString n ++ ")"
  | .number x => "Number(" ++ Decimal.shown x ++ ")"
  | .leftParen => "LParen"
  | .rightParen => "RParen"
  | .leftBracket => "LBracket"
  | .rightBracket => "RBracket"
  | .leftBrace => "LBrace"
  | .rightBrace => "RBrace"
  | .comma => "Comma"
  | .dot => "Dot"
  | .colon => "Colon"
  | .at => "At"
  | .assign => "Assign"
  | .plus => "Plus"
  | .minus => "Minus"
  | .star => "Star"
  | .slash => "Slash"
  | .equal => "EqEq"
  | .notEqual => "NotEq"
  | .less => "Lt"
  | .greater => "Gt"
  | .lessEqual => "LtEq"
  | .greaterEqual => "GtEq"
  | .newline => "Newline"
  | .endOfScript => "Eof"

end Token

/-- A token with the position of its first character. -/
structure PlacedToken where
  token : Token
  position : Position
deriving DecidableEq, Repr

end DawScript
