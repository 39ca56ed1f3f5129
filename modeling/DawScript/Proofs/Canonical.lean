import DawScript.Proofs.FloatBits
import DawScript.Proofs.Phrase
import DawScript.Syntax.Expr
import DawScript.Syntax.Lexeme

/-!
# Canonical programs

Programs as they are written, and which of them are canonical: their names are read as names, their
literals are written in a form that scripts have, and no operand would need parentheses around it.
-/

set_option autoImplicit false

namespace DawScript

/-! ## Programs as they are written -/

/-- A chain as it is written: its calls with points between them. -/
def Chain.text (c : Chain) : String := ".".intercalate (c.calls.map Call.text)

/-- A program as it is written: its chains with line ends between them. -/
def Program.text (p : Program) : String := "\n".intercalate (p.chains.map Chain.text)

/-! ## Names and literals -/

/-- A text is a name when it is read as that name and nothing else. -/
def IsName (s : String) : Prop :=
  (tokens s).map Tokens.kinds = .ok [.name s, .endOfScript]

/-- A text is a segment of a path when it is a name or a number in digits. -/
def IsSegment (s : String) : Prop :=
  IsName s ∨ ∃ n : Nat, (n : Int) < wordLimit ∧ s = toString n

/-- A character is quoted as scripts have it: as itself, or with an escape that scripts know. -/
def Text.EscapedPlainly (c : Char) : Prop :=
  escaped c ∈ [[c], ['\\', '"'], ['\\', '\\'], ['\\', 'n'], ['\\', 't']]

instance (c : Char) : Decidable (Text.EscapedPlainly c) := inferInstanceAs (Decidable (_ ∈ _))

namespace Value

/-- The values whose text is a literal of scripts: the scalars without the least integer, the
numbers that are shown with an exponent, and the texts with other escapes than those of scripts. -/
def Canonical : Value → Prop
  | .null | .bool _ => True
  | .int n => n ≠ Int64.minValue
  | .float x => x.isFinite = true ∧ 'e' ∉ (Decimal.shown x).toList
  | .string s => ∀ c ∈ s.toList, Text.EscapedPlainly c
  | .list _ | .map _ => False

/-- Whether the text of a value begins with a minus sign. -/
def isSigned : Value → Bool
  | .int n => n.toInt < 0
  | .float x => Decimal.isNegative x
  | _ => false

/-- Whether a value is a number. -/
def isNumber : Value → Bool
  | .int _ | .float _ => true
  | _ => false

end Value

/-! ## Expressions -/

/-- The least level of the operand on the left of an operator. Comparisons do not follow each
other. -/
def BinaryOp.leftLevel (op : BinaryOp) : Level :=
  if op.level = .comparison then .sum else op.level

namespace Expr

/-- The level of an expression as it is written. -/
def level : Expr → Level
  | .literal v => if v.isSigned then .signed else .operand
  | .list _ | .map _ | .call _ _ | .function _ _ => .operand
  | .property _ _ | .method _ _ _ => .postfixed
  | .unary _ _ => .signed
  | .binary op _ _ => op.level

/-- Whether an expression is the literal of a number. -/
def isNumber : Expr → Bool
  | .literal v => v.isNumber
  | _ => false

mutual

/-- An expression is canonical when its names are names, its literals can be written, and its
operands and the targets of its methods need no parentheses. -/
def Canonical : Expr → Prop
  | .literal v => v.Canonical
  | .list items => CanonicalItems items
  | .map entries => CanonicalEntries entries
  | .property root path => IsName root ∧ ∀ s ∈ path, IsSegment s
  | .binary op left right => Canonical left ∧ Canonical right ∧
      op.leftLevel ≤ level left ∧ op.level.tighter ≤ level right
  | .unary .not e => Canonical e ∧ .signed ≤ level e
  | .unary .neg e => Canonical e ∧ .signed ≤ level e ∧ isNumber e = false
  | .method target name arguments => Canonical target ∧ .postfixed ≤ level target ∧ IsName name ∧
      CanonicalItems arguments
  | .call name arguments => IsName name ∧ CanonicalArguments arguments
  | .function name arguments => IsName name ∧ CanonicalArguments arguments

/-- All expressions of a list are canonical. -/
def CanonicalItems : List Expr → Prop
  | [] => True
  | item :: rest => Canonical item ∧ CanonicalItems rest

/-- All entries of a map are canonical, and their names are names. -/
def CanonicalEntries : List (String × Expr) → Prop
  | [] => True
  | (name, value) :: rest => IsName name ∧ Canonical value ∧ CanonicalEntries rest

/-- All arguments are canonical, and their keywords are names. -/
def CanonicalArguments : List (Arg Expr) → Prop
  | [] => True
  | ⟨keyword, value⟩ :: rest => (∀ k ∈ keyword, IsName k) ∧ Canonical value ∧
      CanonicalArguments rest

end

end Expr

/-- A call is canonical when its name is a name and its arguments are canonical. -/
def Call.Canonical (c : Call) : Prop := IsName c.name ∧ Expr.CanonicalArguments c.arguments

/-- A program is canonical when it is made of chains of one or more canonical calls. -/
def Program.Canonical (p : Program) : Prop :=
  ∀ chain ∈ p.chains, chain.calls ≠ [] ∧ ∀ c ∈ chain.calls, c.Canonical

/-! ## Looser levels -/

theorem Level.rank_tighter {l m : Level} (h : l.rank < m.rank) : l.tighter.rank = l.rank + 1 := by
  cases l with
  | operand => cases m <;> simp [rank] at h
  | _ => rfl

theorem Level.rank_inj {l m : Level} (h : l.rank = m.rank) : l = m := by
  cases l <;> cases m <;> first | rfl | simp [rank] at h

/-- An expression of a level is also one of all looser levels. -/
theorem Phrase.loosen {l m : Level} (h : l ≤ m) {w : List Token} {e : Expr}
    (hphrase : Phrase (.expr m) w e) : Phrase (.expr l) w e := by
  change l.rank ≤ m.rank at h
  -- each step goes one level towards the tighter one
  induction hn : m.rank - l.rank generalizing l with
  | zero =>
    obtain rfl := Level.rank_inj (show l.rank = m.rank by omega)
    exact hphrase
  | succ n ih =>
    have hrank := Level.rank_tighter (show l.rank < m.rank by omega)
    exact .tighter l (ih (by omega) (by omega))

/-- Operands that need no parentheses make an operation of the level of its operator. -/
theorem Phrase.binary (op : BinaryOp) {v w : List Token} {left right : Expr} {l r : Level}
    (hleft : Phrase (.expr l) v left) (hl : op.leftLevel ≤ l)
    (hright : Phrase (.expr r) w right) (hr : op.level.tighter ≤ r) :
    Phrase (.expr op.level) (v ++ op.token :: w) (.binary op left right) := by
  -- a comparison takes sums on both sides, the other operators group to the left
  by_cases hop : op.level = .comparison
  · rw [BinaryOp.leftLevel, if_pos hop] at hl
    rw [hop] at hr ⊢
    exact .comparison op hop (hleft.loosen hl) (hright.loosen hr)
  · rw [BinaryOp.leftLevel, if_neg hop] at hl
    exact .operation op hop (hleft.loosen hl) (hright.loosen hr)

end DawScript
