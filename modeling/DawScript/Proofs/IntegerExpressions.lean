import DawScript.Proofs.Execution
import DawScript.Proofs.IntegerLiterals

/-!
# Integer expressions

An expression of integer literals, sums, differences, products and negations has an exact value
(`Expr.exactValue?`). Evaluating it gives that value if the exact values of all its parts are words,
and is a fault otherwise, so nothing wraps around. A sign before an integer may therefore become
part of the integer, as it does where the grammar reads it (`integer_expressions_never_wrap`).
-/

set_option autoImplicit false

namespace DawScript

/-! ## Exact values -/

/-- What an operator does with integers; only sums, differences and products are exact. -/
def BinaryOp.exact? : BinaryOp → Option (Int → Int → Int)
  | .add => some (· + ·)
  | .sub => some (· - ·)
  | .mul => some (· * ·)
  | _ => none

/-- Operators that are exact compute on words as on integers. -/
theorem BinaryOp.apply_words {op : BinaryOp} {f : Int → Int → Int} (h : op.exact? = some f)
    (a b : Int64) : op.apply (.int a) (.int b) = Value.exactly op (f a.toInt b.toInt) := by
  cases op with
  | add | sub | mul =>
    cases h
    rfl
  | _ => cases h

/-- An exact integer is a value if it is a word. -/
theorem exactly_of_fits (op : BinaryOp) {n : Int} (h : fitsWord n = true) :
    ∃ w : Int64, w.toInt = n ∧ Value.exactly op n = .ok (.int w) := by
  have hword : word? n = some (Int64.ofInt n) := by rw [word?, if_pos h]
  refine ⟨Int64.ofInt n, word?_eq_some_iff.1 hword, ?_⟩
  rw [Value.exactly, hword]

theorem exactly_of_not_fits (op : BinaryOp) {n : Int} (h : ¬fitsWord n = true) :
    Value.exactly op n = .error (.overflow op) := by
  rw [Value.exactly, word?, if_neg h]

namespace Expr

/-- The exact value of an integer expression; other expressions have none. -/
def exactValue? : Expr → Option Int
  | .literal v => v.int?.map Int64.toInt
  | .binary op left right => do
    let f ← op.exact?
    let a ← exactValue? left
    let b ← exactValue? right
    return f a b
  | .unary .neg operand => (exactValue? operand).map fun a => -a
  | _ => none

theorem exactValue?_literal {v : Value} {n : Int} (h : exactValue? (.literal v) = some n) :
    ∃ w : Int64, v = .int w ∧ w.toInt = n := by
  obtain ⟨w, hw, rfl⟩ := Option.map_eq_some_iff.1 h
  exact ⟨w, Value.int?_eq_some_iff.1 hw, rfl⟩

theorem exactValue?_binary {op : BinaryOp} {left right : Expr} {n : Int}
    (h : exactValue? (.binary op left right) = some n) :
    ∃ f a b, op.exact? = some f ∧ exactValue? left = some a ∧ exactValue? right = some b ∧
      f a b = n := by
  simp only [exactValue?, bind, Option.bind_eq_some_iff, Option.pure_def,
    Option.some.injEq] at h
  obtain ⟨f, hf, a, ha, b, hb, hn⟩ := h
  exact ⟨f, a, b, hf, ha, hb, hn⟩

theorem exactValue?_unary {op : UnaryOp} {operand : Expr} {n : Int}
    (h : exactValue? (.unary op operand) = some n) :
    op = .neg ∧ ∃ a, exactValue? operand = some a ∧ -a = n := by
  cases op with
  | not => cases h
  | neg => exact ⟨rfl, Option.map_eq_some_iff.1 h⟩

/-- The exact values of an expression and of all its parts are words. -/
def PartsFit (e : Expr) : Prop :=
  ∀ (d : Expr) (n : Int), d.PartOf e → d.exactValue? = some n → fitsWord n = true

section PartsFit

variable {n : Int}

theorem partsFit_literal (v : Value) : PartsFit (.literal v) := by
  intro d m hpart hvalue
  cases hpart
  obtain ⟨w, -, rfl⟩ := exactValue?_literal hvalue
  exact fitsWord_toInt w

theorem partsFit_binary_iff {op : BinaryOp} {left right : Expr}
    (h : exactValue? (.binary op left right) = some n) :
    PartsFit (.binary op left right) ↔
      PartsFit left ∧ PartsFit right ∧ fitsWord n = true := by
  constructor
  · intro hfit
    refine ⟨?_, ?_, hfit _ n .whole h⟩
    · intro d m hpart
      exact hfit d m (.left hpart)
    · intro d m hpart
      exact hfit d m (.right hpart)
  · rintro ⟨hleft, hright, hn⟩ d m hpart hvalue
    cases hpart with
    | whole =>
      rw [h] at hvalue
      cases hvalue
      exact hn
    | left hpart => exact hleft d m hpart hvalue
    | right hpart => exact hright d m hpart hvalue

theorem partsFit_unary_iff {op : UnaryOp} {operand : Expr}
    (h : exactValue? (.unary op operand) = some n) :
    PartsFit (.unary op operand) ↔ PartsFit operand ∧ fitsWord n = true := by
  constructor
  · intro hfit
    refine ⟨?_, hfit _ n .whole h⟩
    intro d m hpart
    exact hfit d m (.operand hpart)
  · rintro ⟨hoperand, hn⟩ d m hpart hvalue
    cases hpart with
    | whole =>
      rw [h] at hvalue
      cases hvalue
      exact hn
    | operand hpart => exact hoperand d m hpart hvalue

end PartsFit

end Expr

/-! ## Checked runs -/

namespace Run

/-- A run leaves the state as it is. If all that it computes fits, its value is an exact integer,
and if not, it overflows. -/
structure Checked (x : Run Value) (s : State) (fits : Prop) (n : Int) : Prop where
  value : fits → ∃ w : Int64, w.toInt = n ∧ x.exec s = (.ok (.int w), s)
  overflow : ¬fits → ∃ op, x.exec s = (.error (.evaluation (.overflow op)), s)

variable {x : Run Value} {f : Value → Run Value} {s : State} {p q : Prop} {m n : Int}

theorem checked_word (w : Int64) (s : State) (hp : p) : Checked (pure (.int w)) s p w.toInt := by
  constructor
  · intro _
    exact ⟨w, rfl, rfl⟩
  · intro hnot
    exact absurd hp hnot

/-- Checking the exact result of an operator. -/
theorem checked_exactly (op : BinaryOp) (n : Int) (s : State) :
    Checked (evaluated (Value.exactly op n)) s (fitsWord n = true) n := by
  constructor
  · intro hfits
    obtain ⟨w, hw, hexact⟩ := exactly_of_fits op hfits
    refine ⟨w, hw, ?_⟩
    rw [hexact]
    rfl
  · intro hnot
    refine ⟨op, ?_⟩
    rw [exactly_of_not_fits op hnot]
    rfl

/-- The operand of a checked run is checked first. -/
theorem Checked.bind (hx : Checked x s p m)
    (hf : ∀ w : Int64, w.toInt = m → Checked (f (.int w)) s q n) :
    Checked (x >>= f) s (p ∧ q) n := by
  constructor
  · rintro ⟨hp, hq⟩
    obtain ⟨w, hw, hexec⟩ := hx.value hp
    obtain ⟨v, hv, hrest⟩ := (hf w hw).value hq
    refine ⟨v, hv, ?_⟩
    rw [exec_bind_ok hexec, hrest]
  · intro hnot
    by_cases hp : p
    · obtain ⟨w, hw, hexec⟩ := hx.value hp
      have hq : ¬q := fun hq => hnot ⟨hp, hq⟩
      obtain ⟨op, hrest⟩ := (hf w hw).overflow hq
      refine ⟨op, ?_⟩
      rw [exec_bind_ok hexec, hrest]
    · obtain ⟨op, hexec⟩ := hx.overflow hp
      exact ⟨op, exec_bind_error hexec f⟩

end Run

section Evaluate

variable (env : Env) (scope : Option Binding)

/-- The evaluation of an integer expression is checked at every part of it. -/
theorem evaluate_checked {e : Expr} {n : Int} (h : e.exactValue? = some n) (s : State) :
    (evaluate env e scope).Checked s e.PartsFit n := by
  -- by induction on the expression, of which only integers and exact operators have a value
  induction e using Expr.rec' generalizing n with
  | literal v =>
    obtain ⟨w, rfl, rfl⟩ := Expr.exactValue?_literal h
    rw [evaluate]
    exact Run.checked_word w s (Expr.partsFit_literal _)
  | binary op left right ihl ihr =>
    rw [Expr.partsFit_binary_iff h, evaluate]
    obtain ⟨f, a, b, hf, ha, hb, rfl⟩ := Expr.exactValue?_binary h
    refine (ihl ha).bind ?_
    rintro v rfl
    refine (ihr hb).bind ?_
    rintro w rfl
    rw [BinaryOp.apply_words hf]
    exact Run.checked_exactly op _ s
  | unary op operand ih =>
    rw [Expr.partsFit_unary_iff h, evaluate]
    obtain ⟨rfl, a, ha, rfl⟩ := Expr.exactValue?_unary h
    refine (ih ha).bind ?_
    rintro v rfl
    exact Run.checked_exactly .sub _ s
  | _ => cases h

end Evaluate

/-! ## Signs -/

namespace Expr

/-- An expression with the signs before its integers made part of them, from the inside out. -/
def signsFolded : Expr → Expr
  | .binary op left right => .binary op (signsFolded left) (signsFolded right)
  | .unary .neg operand => Grammar.negated (signsFolded operand)
  | e => e

theorem Negatable.negated {e : Expr} (h : e.Negatable) : (Grammar.negated e).Negatable := by
  have hsign {d : Expr} (hd : d.Negatable) : (Expr.unary .neg d).Negatable := by
    intro m hpart
    cases hpart with
    | operand hpart => exact hd m hpart
  cases e with
  | literal v =>
    cases v with
    | int n => exact negatable_int (minValue_lt_neg (h n .whole))
    | float x => exact negatable_literal nofun
    | _ => exact hsign h
  | _ => exact hsign h

end Expr

/-- The negation of a word other than the least one. -/
theorem neg_word {n : Int64} (h : Int64.minValue < n) :
    UnaryOp.neg.apply (.int n) = .ok (.int (-n)) := by
  rw [Int64.lt_iff_toInt_lt, Int64.toInt_minValue] at h
  have hlt := n.toInt_lt
  have hneg : (-n).toInt = -n.toInt := by
    rw [Int64.toInt_neg, Int.bmod_eq_of_le (by omega) (by omega)]
  rw [UnaryOp.apply, Value.exactly, word?_eq_some_iff.2 hneg]

section Signs

variable (env : Env) (scope : Option Binding)

/-- A sign that becomes part of a number makes no difference. -/
theorem evaluate_negated {e : Expr} (h : e.Negatable) :
    evaluate env (Grammar.negated e) scope = evaluate env (.unary .neg e) scope := by
  cases e with
  | literal v =>
    cases v with
    | int n =>
      have hneg : Run.evaluated (UnaryOp.neg.apply (.int n)) = pure (.int (-n)) := by
        rw [neg_word (h n .whole)]
        rfl
      simp only [Grammar.negated, evaluate, pure_bind, hneg]
    | float x =>
      simp only [Grammar.negated, evaluate, pure_bind]
      rfl
    | _ => rfl
  | _ => rfl

/-- Signs may become part of the integers that they stand before. -/
theorem evaluate_signsFolded {e : Expr} (h : e.Negatable) :
    e.signsFolded.Negatable ∧ evaluate env e.signsFolded scope = evaluate env e scope := by
  induction e using Expr.rec' with
  | binary op left right ihl ihr =>
    have hleft : left.Negatable := fun n hpart => h n (.left hpart)
    have hright : right.Negatable := fun n hpart => h n (.right hpart)
    obtain ⟨hl, hel⟩ := ihl hleft
    obtain ⟨hr, her⟩ := ihr hright
    rw [Expr.signsFolded]
    constructor
    · intro n hpart
      cases hpart with
      | left hpart => exact hl n hpart
      | right hpart => exact hr n hpart
    · simp only [evaluate, hel, her]
  | unary op operand ih =>
    cases op with
    | not =>
      exact ⟨h, rfl⟩
    | neg =>
      have hoperand : operand.Negatable := fun n hpart => h n (.operand hpart)
      obtain ⟨hfolded, heq⟩ := ih hoperand
      rw [Expr.signsFolded]
      refine ⟨hfolded.negated, ?_⟩
      rw [evaluate_negated env scope hfolded]
      simp only [evaluate, heq]
  | _ => exact ⟨h, rfl⟩

end Signs

/-! ## Main result -/

/-- An expression of integer literals, sums, differences, products and negations evaluates to its
exact value if and only if the exact values of all its parts are words; otherwise it overflows.
Unless the least word stands in it, the expression with the signs made part of the integers does
the same in every run. -/
theorem integer_expressions_never_wrap (env : Env) (scope : Option Binding) {e : Expr} {n : Int}
    (h : e.exactValue? = some n) :
    (∀ s, (∃ w : Int64, w.toInt = n ∧ (evaluate env e scope).exec s = (.ok (.int w), s)) ↔
      e.PartsFit) ∧
    (∀ s, ¬e.PartsFit →
      ∃ op, (evaluate env e scope).exec s = (.error (.evaluation (.overflow op)), s)) ∧
    ((∀ m : Int64, (Expr.literal (.int m)).PartOf e → m ≠ Int64.minValue) →
      evaluate env e.signsFolded scope = evaluate env e scope) := by
  refine ⟨?_, ?_, ?_⟩
  · intro s
    constructor
    · rintro ⟨w, -, hexec⟩
      apply Classical.byContradiction
      intro hnot
      obtain ⟨op, hfault⟩ := (evaluate_checked env scope h s).overflow hnot
      rw [hexec] at hfault
      cases hfault
    · exact (evaluate_checked env scope h s).value
  · intro s
    exact (evaluate_checked env scope h s).overflow
  · intro hleast
    have hnegatable : e.Negatable := by
      intro m hpart
      exact Int64.lt_of_le_of_ne (Int64.minValue_le m) (hleast m hpart).symm
    exact (evaluate_signsFolded env scope hnegatable).2

/-- The least word is reached by subtraction, wherever the sign of the greatest one stands, and its
negation is no word. -/
theorem least_word_is_reached :
    let least (greatest : Expr) : Expr := .binary .sub greatest (.literal (.int 1))
    let signed : Expr := least (.unary .neg (.literal (.int 9223372036854775807)))
    let folded : Expr := least (.literal (.int (-9223372036854775807)))
    let start : State := .fresh #[]
    (∃ w : Int64, w.toInt = -9223372036854775808 ∧
        (evaluate ⟨none, {}⟩ signed none).exec start = (.ok (.int w), start)) ∧
      evaluate ⟨none, {}⟩ folded none = evaluate ⟨none, {}⟩ signed none ∧
      ∃ op, (evaluate ⟨none, {}⟩ (.unary .neg signed) none).exec start =
        (.error (.evaluation (.overflow op)), start) := by
  intro least signed folded start
  have hliteral (v : Value) : (Expr.literal v).PartsFit := Expr.partsFit_literal v
  have hoperand : (Expr.unary .neg (.literal (.int 9223372036854775807))).PartsFit := by
    rw [Expr.partsFit_unary_iff rfl]
    exact ⟨hliteral _, by decide⟩
  have hsigned : signed.PartsFit := by
    rw [Expr.partsFit_binary_iff rfl]
    exact ⟨hoperand, hliteral _, by decide⟩
  have hnegated : ¬(Expr.unary .neg signed).PartsFit := by
    rw [Expr.partsFit_unary_iff rfl]
    rintro ⟨-, hfits⟩
    exact absurd hfits (by decide)
  obtain ⟨hvalue, -, hfolded⟩ := integer_expressions_never_wrap ⟨none, {}⟩ none (e := signed) rfl
  obtain ⟨-, hoverflow, -⟩ :=
    integer_expressions_never_wrap ⟨none, {}⟩ none (e := .unary .neg signed) rfl
  refine ⟨(hvalue start).2 hsigned, hfolded ?_, hoverflow start hnegated⟩
  intro m hpart
  change Expr.PartOf _ (.binary .sub (.unary .neg _) _) at hpart
  cases hpart with
  | left hpart =>
    cases hpart with
    | operand hpart =>
      cases hpart
      decide
  | right hpart =>
    cases hpart
    decide

end DawScript
