import DawScript.Syntax.Expr
import DawScript.Syntax.Grammar

/-!
# The grammar

Which words of tokens derive which expressions, arguments, lists and maps. The grammar is a relation
that says nothing about how a word is read: operators have a level, a left operand is of the level
of its operator and a right operand is tighter, and line ends may stand where `lineEnds` stands.
-/

set_option autoImplicit false

namespace DawScript

/-- The tokens of a list without their positions. -/
def Tokens.kinds (ts : Tokens) : List Token := ts.map PlacedToken.token

/-- A run of line ends. -/
def lineEnds (k : Nat) : List Token := List.replicate k .newline

/-! ## Levels and operators -/

/-- How tightly the parts of an expression hold together, from the loosest to the tightest. -/
inductive Level where
  | disjunction
  | conjunction
  | comparison
  | sum
  | product
  | signed
  | postfixed
  | operand
deriving DecidableEq, Repr

/-- The next tighter level. -/
def Level.tighter : Level → Level
  | .disjunction => .conjunction
  | .conjunction => .comparison
  | .comparison => .sum
  | .sum => .product
  | .product => .signed
  | .signed => .postfixed
  | .postfixed | .operand => .operand

/-- How many levels are looser than a level. -/
def Level.rank : Level → Nat
  | .disjunction => 0
  | .conjunction => 1
  | .comparison => 2
  | .sum => 3
  | .product => 4
  | .signed => 5
  | .postfixed => 6
  | .operand => 7

/-- A level is below the levels that are tighter. -/
instance : LE Level := ⟨fun l m => l.rank ≤ m.rank⟩

instance (l m : Level) : Decidable (l ≤ m) := inferInstanceAs (Decidable (l.rank ≤ m.rank))

namespace BinaryOp

/-- The level of an operator. -/
def level : BinaryOp → Level
  | .or => .disjunction
  | .and => .conjunction
  | .eq | .ne | .lt | .gt | .le | .ge => .comparison
  | .add | .sub => .sum
  | .mul | .div => .product

/-- The token of an operator. -/
def token : BinaryOp → Token
  | .add => .plus
  | .sub => .minus
  | .mul => .star
  | .div => .slash
  | .eq => .equal
  | .ne => .notEqual
  | .lt => .less
  | .gt => .greater
  | .le => .lessEqual
  | .ge => .greaterEqual
  | .and => .andWord
  | .or => .orWord

end BinaryOp

/-! ## Tokens with a meaning of their own -/

/-- A token is a literal. -/
inductive Literal : Token → Value → Prop where
  | null : Literal .nullWord .null
  | true : Literal .trueWord (.bool true)
  | false : Literal .falseWord (.bool false)
  | integer (n : Nat) : Literal (.integer n) (.int (Int64.ofNat n))
  | number (x : Float) : Literal (.number x) (.float x)
  | string (s : String) : Literal (.string s) (.string s)

/-- A token is a segment of a path. -/
inductive Segment : Token → String → Prop where
  | name (s : String) : Segment (.name s) s
  | position (n : Nat) : Segment (.integer n) (toString n)

/-- A token is the name of an entry of a map. -/
inductive EntryName : Token → String → Prop where
  | name (s : String) : EntryName (.name s) s
  | string (s : String) : EntryName (.string s) s

/-! ## Phrases -/

/-- What stands in brackets: arguments, the items of a list, or the entries of a map. -/
inductive Group where
  | arguments
  | items
  | entries
deriving DecidableEq, Repr

namespace Group

/-- The token that ends a group. -/
def close : Group → Token
  | .arguments => .rightParen
  | .items => .rightBracket
  | .entries => .rightBrace

/-- What a group is made of. -/
abbrev Element : Group → Type
  | .arguments => Arg Expr
  | .items => Expr
  | .entries => String × Expr

end Group

/-- What a word can be derived from: an expression, an element of a group, or a group after the
bracket that opens it. -/
inductive Nonterminal where
  | expr (l : Level)
  | element (g : Group)
  | group (g : Group)

/-- What a derivation makes of a word. -/
abbrev Nonterminal.Meaning : Nonterminal → Type
  | .expr _ => Expr
  | .element g => g.Element
  | .group g => List g.Element

/-- The derivations of the grammar. -/
inductive Phrase : (n : Nonterminal) → List Token → n.Meaning → Prop where
  | tighter (l : Level) {w : List Token} {e : Expr} :
      Phrase (.expr l.tighter) w e → Phrase (.expr l) w e
  | operation (op : BinaryOp) {v w : List Token} {left right : Expr} : op.level ≠ .comparison →
      Phrase (.expr op.level) v left → Phrase (.expr op.level.tighter) w right →
      Phrase (.expr op.level) (v ++ op.token :: w) (.binary op left right)
  | comparison (op : BinaryOp) {v w : List Token} {left right : Expr} : op.level = .comparison →
      Phrase (.expr .sum) v left → Phrase (.expr .sum) w right →
      Phrase (.expr .comparison) (v ++ op.token :: w) (.binary op left right)
  | not {w : List Token} {e : Expr} :
      Phrase (.expr .signed) w e → Phrase (.expr .signed) (.notWord :: w) (.unary .not e)
  | minusInt {w : List Token} {n : Int64} : Phrase (.expr .signed) w (.literal (.int n)) →
      Phrase (.expr .signed) (.minus :: w) (.literal (.int (-n)))
  | minusFloat {w : List Token} {x : Float} : Phrase (.expr .signed) w (.literal (.float x)) →
      Phrase (.expr .signed) (.minus :: w) (.literal (.float (-x)))
  | minus {w : List Token} {e : Expr} : Phrase (.expr .signed) w e →
      (∀ n, e ≠ .literal (.int n)) → (∀ x, e ≠ .literal (.float x)) →
      Phrase (.expr .signed) (.minus :: w) (.unary .neg e)
  | segment {w : List Token} {root segment : String} {path : List String} {t : Token} :
      Phrase (.expr .postfixed) w (.property root path) → Segment t segment →
      Phrase (.expr .postfixed) (w ++ [.dot, t]) (.property root (path ++ [segment]))
  | method {v w : List Token} {e : Expr} {name : String} {arguments : List (Arg Expr)}
      {t : Token} : Phrase (.expr .postfixed) v e → Segment t name →
      Phrase (.group .arguments) w arguments →
      Phrase (.expr .postfixed) (v ++ .dot :: t :: .leftParen :: w)
        (.method e name (arguments.map Arg.value))
  | literal {t : Token} {v : Value} : Literal t v → Phrase (.expr .operand) [t] (.literal v)
  | name (s : String) : Phrase (.expr .operand) [.name s] (.name s)
  | call (s : String) {w : List Token} {arguments : List (Arg Expr)} :
      Phrase (.group .arguments) w arguments →
      Phrase (.expr .operand) (.name s :: .leftParen :: w) (.call s arguments)
  | function (k : Nat) (s : String) :
      Phrase (.expr .operand) (.at :: (lineEnds k ++ [.name s])) (.function s [])
  | functionCall (k : Nat) (s : String) {w : List Token} {arguments : List (Arg Expr)} :
      Phrase (.group .arguments) w arguments →
      Phrase (.expr .operand) (.at :: (lineEnds k ++ .name s :: .leftParen :: w))
        (.function s arguments)
  | parentheses (j k : Nat) {w : List Token} {e : Expr} : Phrase (.expr .disjunction) w e →
      Phrase (.expr .operand) (.leftParen :: (lineEnds j ++ w ++ lineEnds k ++ [.rightParen])) e
  | list {w : List Token} {items : List Expr} : Phrase (.group .items) w items →
      Phrase (.expr .operand) (.leftBracket :: w) (.list items)
  | map {w : List Token} {entries : List (String × Expr)} : Phrase (.group .entries) w entries →
      Phrase (.expr .operand) (.leftBrace :: w) (.map entries)
  | keyword (s : String) {w : List Token} {e : Expr} : Phrase (.expr .disjunction) w e →
      Phrase (.element .arguments) (.name s :: .assign :: w) ⟨some s, e⟩
  | positional {w : List Token} {e : Expr} : Phrase (.expr .disjunction) w e →
      Phrase (.element .arguments) w ⟨none, e⟩
  | item {w : List Token} {e : Expr} : Phrase (.expr .disjunction) w e →
      Phrase (.element .items) w e
  | entry {w : List Token} {e : Expr} {t separator : Token} {name : String} : EntryName t name →
      separator = .colon ∨ separator = .assign → Phrase (.expr .disjunction) w e →
      Phrase (.element .entries) (t :: separator :: w) (name, e)
  | closed (g : Group) (k : Nat) : Phrase (.group g) (lineEnds k ++ [g.close]) []
  | last (g : Group) (j k : Nat) {w : List Token} {x : g.Element} : Phrase (.element g) w x →
      Phrase (.group g) (lineEnds j ++ w ++ lineEnds k ++ [g.close]) [x]
  | next (g : Group) (j k : Nat) {v w : List Token} {x : g.Element} {xs : List g.Element} :
      Phrase (.element g) v x → Phrase (.group g) w xs →
      Phrase (.group g) (lineEnds j ++ v ++ lineEnds k ++ .comma :: w) (x :: xs)

namespace Phrase

theorem mem_lineEnds {t : Token} {k : Nat} (h : t ∈ lineEnds k) : t = .newline :=
  List.eq_of_mem_replicate h

/-- No phrase holds the end of the script. -/
theorem end_not_mem {n : Nonterminal} {w : List Token} {x : n.Meaning} (h : Phrase n w x) :
    Token.endOfScript ∉ w := by
  have hends (k : Nat) : Token.endOfScript ∉ lineEnds k := fun hmem => nomatch mem_lineEnds hmem
  induction h with
  | tighter l _ ih => exact ih
  | operation op _ _ _ ihl ihr | comparison op _ _ _ ihl ihr =>
    have hop : Token.endOfScript ≠ op.token := by cases op <;> decide
    simp [ihl, ihr, hop]
  | not _ ih | minusInt _ ih | minusFloat _ ih | minus _ _ _ ih => simp [ih]
  | segment _ hsegment ih => cases hsegment <;> simp [ih]
  | method _ hsegment _ ih iha => cases hsegment <;> simp [ih, iha]
  | literal hliteral => cases hliteral <;> simp
  | name s => simp
  | call s _ ih | list _ ih | map _ ih | keyword s _ ih => simp [ih]
  | function k s => simp [hends]
  | functionCall k s _ ih => simp [ih, hends]
  | parentheses j k _ ih => simp [ih, hends]
  | positional _ ih | item _ ih => exact ih
  | entry hname hseparator _ ih => cases hname <;> rcases hseparator with rfl | rfl <;> simp [ih]
  | closed g k => cases g <;> simp [hends, Group.close]
  | last g j k _ ih => cases g <;> simp [ih, hends, Group.close]
  | next g j k _ _ ih ihs => simp [ih, ihs, hends]

/-- A token can begin an expression or an element of a group. -/
def CanBegin (t : Token) : Prop := t ≠ .newline ∧ ∀ g : Group, t ≠ g.close

/-- An expression and an element of a group begin with a token that is neither a line end nor the
end of a group. -/
theorem begins {n : Nonterminal} {w : List Token} {x : n.Meaning} (h : Phrase n w x)
    (hn : ∀ g, n ≠ .group g) : ∃ t rest, w = t :: rest ∧ CanBegin t := by
  have hbegin {t : Token} {rest : List Token} (hnewline : t ≠ .newline)
      (hclose : ∀ g : Group, t ≠ g.close) : ∃ u more, t :: rest = u :: more ∧ CanBegin u :=
    ⟨t, rest, rfl, hnewline, hclose⟩
  -- what comes after a beginning does not change it
  have happend {v w : List Token} (hv : ∃ t rest, v = t :: rest ∧ CanBegin t) :
      ∃ t rest, v ++ w = t :: rest ∧ CanBegin t := by
    obtain ⟨t, rest, rfl, ht⟩ := hv
    exact ⟨t, rest ++ w, rfl, ht⟩
  induction h with
  | tighter l _ ih => exact ih nofun
  | operation op _ _ _ ihl _ | comparison op _ _ _ ihl _ => exact happend (ihl nofun)
  | segment _ _ ih | method _ _ _ ih _ => exact happend (ih nofun)
  | literal hliteral => cases hliteral <;> exact hbegin nofun fun g => by cases g <;> nofun
  | entry hname _ _ _ => cases hname <;> exact hbegin nofun fun g => by cases g <;> nofun
  | positional _ ih | item _ ih => exact ih nofun
  | closed g k | last g j k _ _ | next g j k _ _ _ _ => exact absurd rfl (hn g)
  | _ => exact hbegin nofun fun g => by cases g <;> nofun

/-- An expression that an equals sign does not follow does not look like a keyword argument. -/
theorem not_keyword {n : Nonterminal} {w : List Token} {x : n.Meaning} (h : Phrase n w x)
    (hn : ∃ l, n = .expr l) {v : List Token} (hv : v.head? ≠ some .assign) (s : String)
    (rest : List Token) : w ++ v ≠ .name s :: .assign :: rest := by
  induction h generalizing v with
  | tighter l _ ih => exact ih ⟨_, rfl⟩ hv
  | operation op _ _ _ ihl _ | comparison op _ _ _ ihl _ =>
    rw [List.append_assoc]
    refine ihl ⟨_, rfl⟩ ?_
    cases op <;> nofun
  | segment _ _ ih | method _ _ _ ih _ =>
    rw [List.append_assoc]
    exact ih ⟨_, rfl⟩ nofun
  | literal hliteral => cases hliteral <;> nofun
  | name t =>
    -- only a bare name depends on what comes next
    intro heq
    cases v with
    | nil => cases heq
    | cons u more =>
      cases heq
      exact hv rfl
  | keyword | positional | item | entry | closed | last | next => exact nomatch hn
  | _ => nofun

/-- No sign stands before an operand and what follows it. -/
theorem begins_unsigned {n : Nonterminal} {w : List Token} {x : n.Meaning} (h : Phrase n w x)
    (hn : n = .expr .postfixed ∨ n = .expr .operand) :
    ∃ t rest, w = t :: rest ∧ t ≠ .notWord ∧ t ≠ .minus := by
  have happend {v w : List Token} (hv : ∃ t rest, v = t :: rest ∧ t ≠ .notWord ∧ t ≠ .minus) :
      ∃ t rest, v ++ w = t :: rest ∧ t ≠ .notWord ∧ t ≠ .minus := by
    obtain ⟨t, rest, rfl, ht⟩ := hv
    exact ⟨t, rest ++ w, rfl, ht⟩
  induction h with
  | tighter l _ ih =>
    refine ih (Or.inr ?_)
    rcases hn with hn | hn <;> cases hn <;> rfl
  | operation op => cases op <;> rcases hn with hn | hn <;> cases hn
  | segment _ _ ih | method _ _ _ ih _ => exact happend (ih (Or.inl rfl))
  | literal hliteral => cases hliteral <;> exact ⟨_, _, rfl, nofun, nofun⟩
  | name | call | function | functionCall | parentheses | list | map =>
    exact ⟨_, _, rfl, nofun, nofun⟩
  | _ => rcases hn with hn | hn <;> cases hn

end Phrase

end DawScript
