import DawScript.Proofs.Phrase
import DawScript.Value.Basic

/-!
# Integer literals

A sign before an integer becomes part of it, and there is one integer whose negation is none: the
least one. No expression that the grammar derives from tokens in the range of words has it in it
(`Phrase.negatable`), since such an integer would have to be a token.
-/

set_option autoImplicit false

namespace DawScript

namespace Expr

/-- An expression stands in another one, perhaps as the whole of it. -/
inductive PartOf (e : Expr) : Expr → Prop where
  | whole : PartOf e e
  | item {items : List Expr} {x : Expr} : x ∈ items → PartOf e x → PartOf e (.list items)
  | entry {entries : List (String × Expr)} {x : String × Expr} : x ∈ entries → PartOf e x.2 →
      PartOf e (.map entries)
  | left {op : BinaryOp} {left right : Expr} : PartOf e left → PartOf e (.binary op left right)
  | right {op : BinaryOp} {left right : Expr} : PartOf e right → PartOf e (.binary op left right)
  | operand {op : UnaryOp} {operand : Expr} : PartOf e operand → PartOf e (.unary op operand)
  | target {target : Expr} {name : String} {arguments : List Expr} : PartOf e target →
      PartOf e (.method target name arguments)
  | methodArgument {target : Expr} {name : String} {arguments : List Expr} {x : Expr} :
      x ∈ arguments → PartOf e x → PartOf e (.method target name arguments)
  | callArgument {name : String} {arguments : List (Arg Expr)} {a : Arg Expr} : a ∈ arguments →
      PartOf e a.value → PartOf e (.call name arguments)
  | functionArgument {name : String} {arguments : List (Arg Expr)} {a : Arg Expr} :
      a ∈ arguments → PartOf e a.value → PartOf e (.function name arguments)

/-- Each integer in an expression can be negated. -/
def Negatable (e : Expr) : Prop :=
  ∀ n : Int64, (Expr.literal (.int n)).PartOf e → Int64.minValue < n

theorem negatable_int {n : Int64} (h : Int64.minValue < n) :
    Negatable (.literal (.int n)) := by
  intro m hpart
  cases hpart
  exact h

theorem negatable_literal {v : Value} (h : ∀ n, v ≠ .int n) : Negatable (.literal v) := by
  intro m hpart
  cases hpart
  exact absurd rfl (h m)

end Expr

/-- The negation of an integer that is not the least one is not the least one either. -/
theorem minValue_lt_neg {n : Int64} (h : Int64.minValue < n) : Int64.minValue < -n := by
  rw [Int64.lt_iff_toInt_lt, Int64.toInt_minValue] at h ⊢
  have hlt := n.toInt_lt
  rw [Int64.toInt_neg, Int.bmod_eq_of_le (by omega) (by omega)]
  omega

theorem minValue_lt_ofNat {n : Nat} (h : (n : Int) < wordLimit) :
    Int64.minValue < Int64.ofNat n := by
  unfold wordLimit at h
  rw [Int64.lt_iff_toInt_lt, Int64.toInt_ofNat_of_lt (by omega)]
  exact Int.lt_of_lt_of_le (by decide) (Int.natCast_nonneg n)

/-- The integers of a word are in the range of words. -/
def IntegersFit (w : List Token) : Prop := ∀ n : Nat, .integer n ∈ w → (n : Int) < wordLimit

namespace IntegersFit

variable {v w : List Token} {t : Token}

theorem left (h : IntegersFit (v ++ w)) : IntegersFit v :=
  fun n hn => h n (List.mem_append_left _ hn)

theorem right (h : IntegersFit (v ++ w)) : IntegersFit w :=
  fun n hn => h n (List.mem_append_right _ hn)

theorem tail (h : IntegersFit (t :: w)) : IntegersFit w :=
  fun n hn => h n (List.mem_cons_of_mem _ hn)

end IntegersFit

/-- Each integer in what a word is derived to mean can be negated. -/
def Nonterminal.Negatable : (n : Nonterminal) → n.Meaning → Prop
  | .expr _, e => Expr.Negatable e
  | .element .arguments, a => Expr.Negatable a.value
  | .element .items, e => Expr.Negatable e
  | .element .entries, entry => Expr.Negatable entry.2
  | .group .arguments, arguments => ∀ a ∈ arguments, Expr.Negatable a.value
  | .group .items, items => ∀ e ∈ items, Expr.Negatable e
  | .group .entries, entries => ∀ entry ∈ entries, Expr.Negatable entry.2

namespace Nonterminal

theorem negatable_nil (g : Group) : Negatable (.group g) [] := by
  cases g <;> exact fun _ h => nomatch h

theorem negatable_cons {g : Group} {x : g.Element} {xs : List g.Element}
    (hx : Negatable (.element g) x) (hxs : Negatable (.group g) xs) :
    Negatable (.group g) (x :: xs) := by
  cases g <;> exact List.forall_mem_cons.2 ⟨hx, hxs⟩

end Nonterminal

theorem Phrase.negatable {n : Nonterminal} {w : List Token} {x : n.Meaning} (h : Phrase n w x)
    (hw : IntegersFit w) : n.Negatable x := by
  -- one case for each derivation; only a sign makes an integer of another one
  induction h with
  | tighter l _ ih => exact ih hw
  | operation op _ _ _ ihl ihr | comparison op _ _ _ ihl ihr =>
    intro n hpart
    cases hpart with
    | left hpart => exact ihl hw.left n hpart
    | right hpart => exact ihr hw.right.tail n hpart
  | not _ ih | minus _ _ _ ih =>
    intro n hpart
    cases hpart with
    | operand hpart => exact ih hw.tail n hpart
  | minusInt _ ih => exact Expr.negatable_int (minValue_lt_neg (ih hw.tail _ .whole))
  | minusFloat _ _ => exact Expr.negatable_literal nofun
  | segment _ _ _ => exact fun n hpart => nomatch hpart
  | method _ _ _ ih iha =>
    intro n hpart
    cases hpart with
    | target hpart => exact ih hw.left n hpart
    | methodArgument hmem hpart =>
      obtain ⟨a, ha, rfl⟩ := List.mem_map.1 hmem
      exact iha hw.right.tail.tail.tail a ha n hpart
  | literal hliteral =>
    cases hliteral with
    | integer k => exact Expr.negatable_int (minValue_lt_ofNat (hw k List.mem_cons_self))
    | _ => exact Expr.negatable_literal nofun
  | name s => exact fun n hpart => nomatch hpart
  | call s _ ih =>
    intro n hpart
    cases hpart with
    | callArgument ha hpart => exact ih hw.tail.tail _ ha n hpart
  | function k s =>
    intro n hpart
    cases hpart with
    | functionArgument ha _ => cases ha
  | functionCall k s _ ih =>
    intro n hpart
    cases hpart with
    | functionArgument ha hpart => exact ih hw.tail.right.tail.tail _ ha n hpart
  | parentheses j k _ ih => exact ih hw.tail.left.left.right
  | list _ ih =>
    intro n hpart
    cases hpart with
    | item he hpart => exact ih hw.tail _ he n hpart
  | map _ ih =>
    intro n hpart
    cases hpart with
    | entry he hpart => exact ih hw.tail _ he n hpart
  | keyword s _ ih => exact ih hw.tail.tail
  | positional _ ih | item _ ih => exact ih hw
  | entry _ _ _ ih => exact ih hw.tail.tail
  | closed g k => exact Nonterminal.negatable_nil g
  | last g j k _ ih =>
    exact Nonterminal.negatable_cons (ih hw.left.left.right) (Nonterminal.negatable_nil g)
  | next g j k _ _ ih ihs =>
    exact Nonterminal.negatable_cons (ih hw.left.left.right) (ihs hw.right.tail)

end DawScript
