import DawScript.Consumed
import DawScript.Syntax.Expr
import DawScript.Syntax.Lexeme

/-!
# The grammar

Programs from tokens. From the loosest to the tightest, operators are `or`, `and`, one
comparison, sums, products, the signs before an operand, and path segments and method calls after
one; all but the comparison group to the left.

Brackets, argument lists and signs hold expressions again. A reader of such an inner expression is
a parameter of each rule, restricted to lists shorter than a bound, and `expr` ties the knot by
recursion on the bound.
-/

namespace DawScript

/-!
## Reading tokens

The steps that the grammar is made of: looking at the token in front, passing over line ends, and
taking a token that has to be there.
-/

/-- The tokens still to be read. -/
abbrev Tokens := List PlacedToken

/-- A result read from `ts`, or a fault. -/
abbrev Reading (α : Type) (ts : Tokens) := Except Fault (Consumed PlacedToken α ts)

namespace Tokens

/-- The token in front; where there is none the script has ended. -/
def front : Tokens → PlacedToken
  | t :: _ => t
  | [] => ⟨.endOfScript, ⟨1, 1⟩⟩

/-- Whether the script ends here. -/
def atEnd (ts : Tokens) : Bool := ts.front.token == .endOfScript

/-- The tokens after leading line ends. -/
def skipNewlines (ts : Tokens) : Tokens := ts.dropWhile fun t => t.token == .newline

theorem skipNewlines_length_le (ts : Tokens) : (skipNewlines ts).length ≤ ts.length :=
  (List.dropWhile_sublist _).length_le

/-- The fault that the token in front is not what was wanted. -/
def unexpected {α : Type} (wanted : Wanted) (ts : Tokens) : Except Fault α :=
  .error (.malformed (.unexpected wanted ts.front.token) ts.front.position)

/-- What is left after something was taken. -/
abbrev Shorter (ts : Tokens) := { rest : Tokens // rest.length < ts.length }

/-- Takes the token `t` if it is in front. -/
def takeFront? (t : Token) (ts : Tokens) : Option (Shorter ts) :=
  match ts with
  | [] => none
  | u :: rest => if u.token = t then some ⟨rest, by simp⟩ else none

/-- Takes the token `t` if it is in front after line ends. -/
def take? (t : Token) (ts : Tokens) : Option (Shorter ts) :=
  (takeFront? t (skipNewlines ts)).map fun rest =>
    ⟨rest.1, Nat.lt_of_lt_of_le rest.2 (skipNewlines_length_le ts)⟩

/-- Takes the token `t`, which has to be in front after line ends. -/
def expect (t : Token) (ts : Tokens) : Except Fault (Shorter ts) :=
  match take? t ts with
  | some rest => .ok rest
  | none => unexpected (.token t) (skipNewlines ts)

/-- Takes a name in front. -/
def frontName? (ts : Tokens) : Option (Consumed PlacedToken String ts) :=
  match ts with
  | ⟨.name s, _⟩ :: _ => some (.one s)
  | _ => none

/-- Takes a name, which has to be in front after line ends. -/
def expectName (ts : Tokens) : Reading String ts :=
  match frontName? (skipNewlines ts) with
  | some name => .ok (name.within (skipNewlines_length_le ts))
  | none => unexpected .identifier (skipNewlines ts)

end Tokens

namespace Grammar

open Tokens

/-- A reader of expressions from lists shorter than `n`. -/
abbrev Inner (n : Nat) := (ts : Tokens) → ts.length < n → Reading Expr ts

/-- A reader of expressions from lists no longer than `n`. -/
abbrev Rule (n : Nat) := (ts : Tokens) → ts.length ≤ n → Reading Expr ts

variable {n : Nat}

/-! ## Arguments, lists and maps -/

/-- Elements with commas between them, up to and including the token that closes them; a comma may
end them. -/
def elements {α : Type} (close : Token) (element : (ts : Tokens) → ts.length < n → Reading α ts)
    (ts : Tokens) (h : ts.length < n) : Reading (List α) ts :=
  match take? close ts with
  | some ⟨rest, hrest⟩ => .ok ⟨[], rest, hrest⟩
  | none => do
    -- an element does not skip the line ends in front of it
    have hskip := skipNewlines_length_le ts
    let ⟨first, after, hafter⟩ ← element (skipNewlines ts) (by omega)
    match take? .comma after with
    | some ⟨rest, hrest⟩ =>
      let ⟨others, more, hmore⟩ ← elements close element rest (by omega)
      return ⟨first :: others, more, by omega⟩
    | none =>
      let ⟨rest, hrest⟩ ← expect close after
      return ⟨[first], rest, by omega⟩
termination_by ts.length

/-- An argument, a keyword argument if a name and an equals sign begin it. -/
def arg (inner : Inner n) (ts : Tokens) (h : ts.length < n) : Reading (Arg Expr) ts :=
  match ts with
  | ⟨.name keyword, _⟩ :: ⟨.assign, _⟩ :: rest => do
    let ⟨value, after, hafter⟩ ← inner rest (by simp only [List.length_cons] at h; omega)
    return ⟨⟨some keyword, value⟩, after, by simp only [List.length_cons]; omega⟩
  | ts => do
    let ⟨value, after, hafter⟩ ← inner ts h
    return ⟨⟨none, value⟩, after, hafter⟩

/-- Arguments after the opening parenthesis, up to and including the closing one. -/
def args (inner : Inner n) (ts : Tokens) (h : ts.length < n) : Reading (List (Arg Expr)) ts :=
  elements .rightParen (arg inner) ts h

/-- The items of a list after its opening bracket, up to and including the closing one. -/
def items (inner : Inner n) (ts : Tokens) (h : ts.length < n) : Reading (List Expr) ts :=
  elements .rightBracket inner ts h

/-- The name of an entry of a map. -/
def mapKey (ts : Tokens) : Reading String ts :=
  match ts with
  | ⟨.name s, _⟩ :: _ => .ok (.one s)
  | ⟨.string s, _⟩ :: _ => .ok (.one s)
  | ts => unexpected .mapKey ts

/-- The colon or equals sign after the name of an entry. -/
def afterKey (ts : Tokens) : Reading Unit ts :=
  match ts with
  | ⟨.colon, _⟩ :: _ => .ok (.one ())
  | ⟨.assign, _⟩ :: _ => .ok (.one ())
  | ts => unexpected .colonAfterKey ts

/-- An entry of a map. -/
def entry (inner : Inner n) (ts : Tokens) (h : ts.length < n) : Reading (String × Expr) ts := do
  let ⟨key, rest, hkey⟩ ← mapKey ts
  let ⟨_, rest', hcolon⟩ ← afterKey rest
  let ⟨value, rest'', hvalue⟩ ← inner rest' (by omega)
  return ⟨(key, value), rest'', by omega⟩

/-- The entries of a map after its opening brace, up to and including the closing one. -/
def entries (inner : Inner n) (ts : Tokens) (h : ts.length < n) :
    Reading (List (String × Expr)) ts :=
  elements .rightBrace (entry inner) ts h

/-! ## Operands -/

/-- The literal that a token is by itself. -/
def literal? : Token → Option Value
  | .integer n => some (.int (Int64.ofNat n))
  | .number x => some (.float x)
  | .string s => some (.string s)
  | .trueWord => some (.bool true)
  | .falseWord => some (.bool false)
  | .nullWord => some .null
  | _ => none

/-- A function reference after its sign; it may do without arguments. -/
def function (inner : Inner n) (ts : Tokens) (h : ts.length < n) : Reading Expr ts := do
  let ⟨name, after, hafter⟩ ← expectName ts
  match takeFront? .leftParen after with
  | some ⟨rest, hrest⟩ =>
    let ⟨arguments, more, hmore⟩ ← args inner rest (by omega)
    return ⟨.function name arguments, more, by omega⟩
  | none => return ⟨.function name [], after, hafter⟩

/-- A name by itself, or a call if a parenthesis follows at once. `after` is what follows the
name. -/
def nameOrCall (inner : Inner n) (name : String) (after : Tokens) (h : after.length < n) :
    Except Fault (Expr × { rest : Tokens // rest.length ≤ after.length }) :=
  match takeFront? .leftParen after with
  | some ⟨rest, hrest⟩ => do
    let ⟨arguments, more, hmore⟩ ← args inner rest (by omega)
    return (.call name arguments, ⟨more, by omega⟩)
  | none => return (.name name, ⟨after, Nat.le_refl _⟩)

/-- An operand from its first token: a literal, a name, a call, a function reference, a list, a map,
or an expression in parentheses. -/
def operandFrom (inner : Inner n) (t : PlacedToken) (rest : Tokens) (h : rest.length < n) :
    Reading Expr (t :: rest) :=
  match t.token with
  | .leftParen => do
    -- parentheses leave no trace in the expression
    have hskip := skipNewlines_length_le rest
    let ⟨e, after, hafter⟩ ← inner (skipNewlines rest) (by omega)
    let ⟨more, hmore⟩ ← expect .rightParen after
    return ⟨e, more, by simp only [List.length_cons]; omega⟩
  | .leftBracket => do
    let ⟨es, after, hafter⟩ ← items inner rest h
    return ⟨.list es, after, by simp only [List.length_cons]; omega⟩
  | .leftBrace => do
    let ⟨es, after, hafter⟩ ← entries inner rest h
    return ⟨.map es, after, by simp only [List.length_cons]; omega⟩
  | .at => do
    let ⟨e, after, hafter⟩ ← function inner rest h
    return ⟨e, after, by simp only [List.length_cons]; omega⟩
  | .name s => do
    let (e, ⟨after, hafter⟩) ← nameOrCall inner s rest h
    return ⟨e, after, by simp only [List.length_cons]; omega⟩
  | token =>
    match literal? token with
    | some v => .ok (.one (.literal v))
    | none => unexpected .expression (t :: rest)

/-- An operand. -/
def primary (inner : Inner n) : Rule n := fun ts h =>
  match ts with
  | [] => unexpected .expression []
  | t :: rest => operandFrom inner t rest h

/-- The path segment that a token is. -/
def segment? : Token → Option String
  | .name s => some s
  | .integer n => some (toString n)
  | _ => none

/-- A path longer by one segment; only a path has segments. -/
def access (e : Expr) (segment : String) (position : Position) : Except Fault Expr :=
  match e with
  | .property root path => .ok (.property root (path ++ [segment]))
  | _ => .error (.malformed (.noAccess segment e.text) position)

/-- The segments and method calls after an operand `e`. -/
def postfixes (inner : Inner n) {input : Tokens} (e : Expr) (ts : Tokens)
    (hts : ts.length < input.length) (hn : input.length ≤ n) : Reading Expr input :=
  match takeFront? .dot ts with
  | none => .ok ⟨e, ts, hts⟩
  | some ⟨[], _⟩ => unexpected .propertyName []
  | some ⟨t :: after, hafter⟩ =>
    have hstep : after.length < ts.length := Nat.lt_of_succ_lt hafter
    match segment? t.token with
    | none => unexpected .propertyName (t :: after)
    | some segment =>
      match takeFront? .leftParen after with
      | some ⟨rest, hrest⟩ => do
        -- methods have no parameters to give keyword arguments to, so keywords are dropped
        have hopen : rest.length < input.length := Nat.lt_trans hrest (Nat.lt_trans hstep hts)
        let ⟨arguments, more, hmore⟩ ← args inner rest (Nat.lt_of_lt_of_le hopen hn)
        postfixes inner (.method e segment (arguments.map Arg.value)) more
          (Nat.lt_trans hmore hopen) hn
      | none => do
        let longer ← access e segment t.position
        postfixes inner longer after (Nat.lt_trans hstep hts) hn
termination_by ts.length

/-- An operand with the segments and method calls after it. -/
def postfixed (inner : Inner n) : Rule n := fun ts h => do
  let ⟨e, rest, hrest⟩ ← primary inner ts h
  postfixes inner e rest hrest h

/-- The negation of an expression; that of a number is the number with the other sign. -/
def negated : Expr → Expr
  | .literal (.int w) => .literal (.int (-w))
  | .literal (.float x) => .literal (.float (-x))
  | e => .unary .neg e

/-- An operand with the signs before it. -/
def signed (inner : Inner n) : Rule n := fun ts h =>
  match ts with
  | ⟨.notWord, _⟩ :: rest => do
    let ⟨e, after, hafter⟩ ← signed inner rest (Nat.le_of_succ_le h)
    return ⟨.unary .not e, after, by simp only [List.length_cons]; omega⟩
  | ⟨.minus, _⟩ :: rest => do
    let ⟨e, after, hafter⟩ ← signed inner rest (Nat.le_of_succ_le h)
    return ⟨negated e, after, by simp only [List.length_cons]; omega⟩
  | ts => postfixed inner ts h

/-! ## Binary operators -/

/-- The operator that a token is, at each level of tightness. -/
def orOp? : Token → Option BinaryOp
  | .orWord => some .or
  | _ => none

@[inherit_doc orOp?] def andOp? : Token → Option BinaryOp
  | .andWord => some .and
  | _ => none

@[inherit_doc orOp?] def comparisonOp? : Token → Option BinaryOp
  | .equal => some .eq
  | .notEqual => some .ne
  | .less => some .lt
  | .greater => some .gt
  | .lessEqual => some .le
  | .greaterEqual => some .ge
  | _ => none

@[inherit_doc orOp?] def sumOp? : Token → Option BinaryOp
  | .plus => some .add
  | .minus => some .sub
  | _ => none

@[inherit_doc orOp?] def productOp? : Token → Option BinaryOp
  | .star => some .mul
  | .slash => some .div
  | _ => none

/-- The operators and operands after a first operand, grouped to the left. -/
def operations (op? : Token → Option BinaryOp) (operand : Rule n) {input : Tokens} (left : Expr)
    (ts : Tokens) (hts : ts.length < input.length) (hn : input.length ≤ n) : Reading Expr input :=
  match ts with
  | [] => .ok ⟨left, [], hts⟩
  | t :: rest =>
    match op? t.token with
    | none => .ok ⟨left, t :: rest, hts⟩
    | some op => do
      have hrest : rest.length < input.length := by rw [List.length_cons] at hts; omega
      let ⟨right, after, hafter⟩ ← operand rest (by omega)
      operations op? operand (.binary op left right) after (by omega) hn
termination_by ts.length

/-- Operands with operators of one level between them, grouped to the left. -/
def leftChain (op? : Token → Option BinaryOp) (operand : Rule n) : Rule n := fun ts h => do
  let ⟨left, rest, hrest⟩ ← operand ts h
  operations op? operand left rest hrest h

/-- One operand, or two with an operator between them. -/
def oneComparison (operand : Rule n) : Rule n := fun ts h => do
  let ⟨left, after, hafter⟩ ← operand ts h
  match after, hafter with
  | [], hafter => return ⟨left, [], hafter⟩
  | t :: rest, hafter =>
    match comparisonOp? t.token with
    | none => return ⟨left, t :: rest, hafter⟩
    | some op =>
      -- a second comparison is not read as part of the expression
      have hrest : rest.length < ts.length := by rw [List.length_cons] at hafter; omega
      let ⟨right, more, hmore⟩ ← operand rest (by omega)
      return ⟨.binary op left right, more, by omega⟩

/-- An expression whose inner expressions are read by `inner`. -/
def layered (inner : Inner n) : Rule n :=
  leftChain orOp? <| leftChain andOp? <| oneComparison <| leftChain sumOp? <|
    leftChain productOp? <| signed inner

/-- Reads an expression from a list shorter than `n`. -/
def expr : (n : Nat) → Inner n
  | 0 => fun _ h => absurd h (Nat.not_lt_zero _)
  | n + 1 => fun ts h => layered (expr n) ts (Nat.le_of_lt_succ h)

/-!
## Chains and programs

A program is read chain by chain. Chains end at a line end or at the end of the script, but a
chain goes on over line ends if a point comes after them.
-/

/-- A call that stands for itself: a name and arguments in parentheses. -/
def call (ts : Tokens) : Reading Call ts := do
  let ⟨name, after, hafter⟩ ← expectName ts
  let ⟨rest, hrest⟩ ← expect .leftParen after
  let ⟨arguments, more, hmore⟩ ← args (expr ts.length) rest (Nat.lt_trans hrest hafter)
  return ⟨⟨name, arguments⟩, more, Nat.lt_trans hmore (Nat.lt_trans hrest hafter)⟩

/-- The calls after the first one of a chain, each after a point. -/
def moreCalls {input : Tokens} (ts : Tokens) (hts : ts.length < input.length) :
    Reading (List Call) input :=
  match take? .dot ts with
  | none => .ok ⟨[], ts, hts⟩
  | some ⟨rest, hrest⟩ => do
    let ⟨first, after, hafter⟩ ← call rest
    let ⟨others, more, hmore⟩ ← @moreCalls input after (by omega)
    return ⟨first :: others, more, hmore⟩
termination_by ts.length

/-- A chain of calls. -/
def chain (ts : Tokens) : Reading Chain ts := do
  let ⟨first, after, hafter⟩ ← call ts
  let ⟨others, rest, hrest⟩ ← moreCalls after hafter
  return ⟨⟨first :: others⟩, rest, hrest⟩

/-- Chains up to the end of the script, from a place where one may begin. -/
def chains (ts : Tokens) : Except Fault (List Chain) :=
  if atEnd ts then .ok []
  else do
    let ⟨first, rest, _hrest⟩ ← chain ts
    if !atEnd rest && (front rest).token != .newline then unexpected .endOfStatement rest
    else
      have _hskip := skipNewlines_length_le rest
      let others ← chains (skipNewlines rest)
      return first :: others
termination_by ts.length

end Grammar

/-- The program that tokens make up. -/
def Program.ofTokens (ts : Tokens) : Except Fault Program :=
  (Grammar.chains ts.skipNewlines).map Program.mk

/-- The program of a script. -/
def Program.parse (script : String) : Except Fault Program := do
  Program.ofTokens (← tokens script)

end DawScript
