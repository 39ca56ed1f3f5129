import DawScript.Decimal.Float
import Mathlib.Algebra.Order.Field.Power
import Mathlib.Algebra.Order.Field.Rat
import Mathlib.Tactic.FieldSimp
import Mathlib.Tactic.GCongr
import Mathlib.Tactic.Linarith
import Mathlib.Tactic.Positivity
import Mathlib.Tactic.Push
import Mathlib.Tactic.Ring

/-!
# The fractions that round to a number

Around every positive finite number lies an interval of fractions (`Binary.Rounds`), half of a last
place wide on either side, and only a quarter below a power of two. All of them are rounded to the
bits of that number (`nearestBits_of_rounds`).
-/

set_option autoImplicit false

namespace DawScript.Decimal

/-! ## Rounding to whole numbers -/

/-- A quotient within a half of a number is rounded to it, if a half is only allowed around an even
number. -/
theorem roundEven_eq {num den n : Nat} (hden : 0 < den) (hlow : 2 * (n * den) ≤ 2 * num + den)
    (hhigh : 2 * num ≤ 2 * (n * den) + den)
    (htie : 2 * (n * den) = 2 * num + den ∨ 2 * num = 2 * (n * den) + den → n % 2 = 0) :
    roundEven num den = n := by
  have hdiv := Nat.div_add_mod num den
  have hmod := Nat.mod_lt num hden
  have hcomm : num / den * den = den * (num / den) := Nat.mul_comm _ _
  -- the quotient without its remainder is the number or the one below it
  have hless : n < num / den + 2 := by
    by_contra h
    have hmul := Nat.mul_le_mul_right den (Nat.le_of_not_lt h)
    rw [Nat.add_mul] at hmul
    omega
  have hge : num / den ≤ n := by
    by_contra h
    have hmul := Nat.mul_le_mul_right den (Nat.succ_le_of_lt (Nat.lt_of_not_le h))
    rw [Nat.succ_mul] at hmul
    omega
  have hcase : n = num / den ∨ n = num / den + 1 := by omega
  simp only [roundEven]
  rcases hcase with rfl | rfl
  · split
    · rfl
    · split
      · omega
      · rw [htie (by omega)]
        rfl
  · rw [Nat.add_mul, Nat.one_mul] at *
    split
    · omega
    · split
      · rfl
      · -- a tie is broken towards the even number
        have heven := htie (by omega)
        omega

theorem roundEven_eq_of_near {num den n : Nat} (hden : 0 < den) {t : ℚ} (ht : t = num / den)
    (hlow : n - 1 / 2 ≤ t) (hhigh : t ≤ n + 1 / 2)
    (htie : t = n - 1 / 2 ∨ t = n + 1 / 2 → n % 2 = 0) : roundEven num den = n := by
  have hpos : (0 : ℚ) < den := by exact_mod_cast hden
  have hmul : t * den = num := by rw [ht, div_mul_cancel₀ _ hpos.ne']
  have hlow' : (n - 1 / 2) * (den : ℚ) ≤ t * den := by gcongr
  have hhigh' : t * (den : ℚ) ≤ (n + 1 / 2) * den := by gcongr
  rw [hmul] at hlow' hhigh'
  -- without the denominator the bounds are about natural numbers
  refine roundEven_eq hden ?_ ?_ fun h => htie ?_
  · have hle : 2 * ((n : ℚ) * den) ≤ 2 * num + den := by linarith
    exact_mod_cast hle
  · have hle : 2 * (num : ℚ) ≤ 2 * (n * den) + den := by linarith
    exact_mod_cast hle
  · rcases h with h | h
    · have heq : 2 * ((n : ℚ) * den) = 2 * num + den := by exact_mod_cast h
      exact Or.inl (mul_right_cancel₀ hpos.ne' (by linarith))
    · have heq : 2 * (num : ℚ) = 2 * (n * den) + den := by exact_mod_cast h
      exact Or.inr (mul_right_cancel₀ hpos.ne' (by linarith))

/-! ## The leading bit -/

/-- A power with an integer exponent as a quotient of powers with natural ones. -/
theorem zpow_eq_toNat {x : ℚ} (hx : x ≠ 0) (n : ℤ) : x ^ n = x ^ n.toNat / x ^ (-n).toNat := by
  rw [← zpow_natCast, ← zpow_natCast, ← zpow_sub₀ hx]
  congr 1
  omega

theorem two_zpow_sub (a b : Nat) : (2 : ℚ) ^ ((a : ℤ) - b) = 2 ^ a / 2 ^ b := by
  rw [zpow_sub₀ two_ne_zero, zpow_natCast, zpow_natCast]

theorem leadingOne_eq_zpow : (leadingOne : ℚ) = 2 ^ (52 : ℤ) := by
  norm_num [leadingOne]

section LeadingBit

variable {num den : Nat} (hnum : 0 < num) (hden : 0 < den)

include hnum hden

theorem leadingBit_spec :
    (2 : ℚ) ^ leadingBit num den ≤ num / den ∧ (num / den : ℚ) < 2 ^ (leadingBit num den + 1) := by
  have hn : (2 : ℚ) ^ num.log2 ≤ num := by exact_mod_cast Nat.log2_self_le hnum.ne'
  have hn' : (num : ℚ) < 2 ^ (num.log2 + 1) := by exact_mod_cast Nat.lt_log2_self
  have hd : (2 : ℚ) ^ den.log2 ≤ den := by exact_mod_cast Nat.log2_self_le hden.ne'
  have hd' : (den : ℚ) < 2 ^ (den.log2 + 1) := by exact_mod_cast Nat.lt_log2_self
  have hpos : (0 : ℚ) < den := by exact_mod_cast hden
  -- the difference of the logarithms is the leading bit or one more, which the test decides
  generalize hp : (num.log2 : ℤ) - den.log2 = p
  have htest : num * Nat.pow 2 (-p).toNat < den * Nat.pow 2 p.toNat ↔ (num / den : ℚ) < 2 ^ p := by
    rw [zpow_eq_toNat two_ne_zero, div_lt_div_iff₀ hpos (by positivity), mul_comm (2 ^ _ : ℚ)]
    exact_mod_cast Iff.rfl
  have hlow : (2 : ℚ) ^ (p - 1) ≤ num / den := by
    have hexponent : p - 1 = (num.log2 : ℤ) - ((den.log2 + 1 : Nat) : ℤ) := by omega
    rw [hexponent, two_zpow_sub]
    gcongr
  have hhigh : (num / den : ℚ) < 2 ^ (p + 1) := by
    have hexponent : p + 1 = ((num.log2 + 1 : Nat) : ℤ) - (den.log2 : ℤ) := by omega
    rw [hexponent, two_zpow_sub]
    gcongr
  simp only [leadingBit, hp]
  split
  · next h => exact ⟨hlow, by rw [sub_add_cancel]; exact htest.1 h⟩
  · next h => exact ⟨not_lt.1 fun hless => h (htest.2 hless), hhigh⟩

theorem leadingBit_lt {p : ℤ} (h : (num / den : ℚ) < 2 ^ p) : leadingBit num den < p :=
  (zpow_lt_zpow_iff_right₀ one_lt_two).1 ((leadingBit_spec hnum hden).1.trans_lt h)

theorem leadingBit_eq {p : ℤ} (hlow : (2 : ℚ) ^ p ≤ num / den)
    (hhigh : (num / den : ℚ) < 2 ^ (p + 1)) : leadingBit num den = p := by
  have hge := (zpow_lt_zpow_iff_right₀ one_lt_two).1
    (hlow.trans_lt (leadingBit_spec hnum hden).2)
  have hlt := leadingBit_lt hnum hden hhigh
  omega

/-- The last place of a quotient, when a mantissa below `2 ^ 53` stands there. -/
theorem leadingBit_of_place {place : Nat} {t : ℚ}
    (ht : (num / den : ℚ) = t * 2 ^ ((place : ℤ) - 1074)) (hhigh : t < 2 * leadingOne)
    (hlow : place = 0 ∨ leadingOne ≤ t) : (leadingBit num den + 1022).toNat = place := by
  have hless : (num / den : ℚ) < 2 ^ ((place : ℤ) - 1021) := by
    calc (num / den : ℚ) = t * 2 ^ ((place : ℤ) - 1074) := ht
      _ < 2 * leadingOne * 2 ^ ((place : ℤ) - 1074) := by gcongr
      _ = 2 ^ ((place : ℤ) - 1021) := by
        rw [leadingOne_eq_zpow, ← zpow_one_add₀ two_ne_zero, ← zpow_add₀ two_ne_zero]
        congr 1
        ring
  rcases hlow with rfl | hlow
  · -- the least place is taken for all smaller quotients too
    have hbit := leadingBit_lt hnum hden hless
    rw [Nat.cast_zero] at hbit
    omega
  · have hge : (2 : ℚ) ^ ((place : ℤ) - 1022) ≤ num / den := by
      calc (2 : ℚ) ^ ((place : ℤ) - 1022) = leadingOne * 2 ^ ((place : ℤ) - 1074) := by
            rw [leadingOne_eq_zpow, ← zpow_add₀ two_ne_zero]
            congr 1
            ring
        _ ≤ t * 2 ^ ((place : ℤ) - 1074) := by gcongr
        _ = num / den := ht.symm
    have hnext : (place : ℤ) - 1022 + 1 = place - 1021 := by ring
    rw [leadingBit_eq hnum hden hge (by rw [hnext]; exact hless)]
    omega

end LeadingBit

/-! ## Rounding to bits -/

theorem eq_div_of_scaled {num den up down : Nat} (hden : 0 < den) {t : ℚ}
    (ht : (num / den : ℚ) = t * (2 ^ up / 2 ^ down)) :
    t = (num * Nat.pow 2 down : Nat) / (den * Nat.pow 2 up : Nat) := by
  have hpos : (0 : ℚ) < den := by exact_mod_cast hden
  rw [Nat.pow_eq, Nat.pow_eq]
  push_cast
  field_simp at ht ⊢
  linarith

/-- A quotient is rounded to the mantissa that its count of units of the last place is nearest
to. -/
theorem nearestBits_eq {num den place n : Nat} (hden : 0 < den)
    (hplace : (leadingBit num den + 1022).toNat = place) {t : ℚ}
    (ht : (num / den : ℚ) = t * 2 ^ ((place : ℤ) - 1074)) (hlow : n - 1 / 2 ≤ t)
    (hhigh : t ≤ n + 1 / 2) (htie : t = n - 1 / 2 ∨ t = n + 1 / 2 → n % 2 = 0)
    (hfinite : place * leadingOne + n ≤ infinityBits) :
    nearestBits num den = place * leadingOne + n := by
  have hround : roundEven (num * Nat.pow 2 (1074 - place)) (den * Nat.pow 2 (place - 1074)) =
      n := by
    have hup : ((place : ℤ) - 1074).toNat = place - 1074 := by omega
    have hdown : (-((place : ℤ) - 1074)).toNat = 1074 - place := by omega
    rw [zpow_eq_toNat two_ne_zero, hup, hdown] at ht
    exact roundEven_eq_of_near (Nat.mul_pos hden (Nat.two_pow_pos _)) (eq_div_of_scaled hden ht)
      hlow hhigh htie
  simp only [nearestBits, hplace, hround]
  exact Nat.min_eq_left hfinite

namespace Binary

/-- The least fraction that may round to a number: half a unit of the last place below it, but only
a quarter below a power of two. -/
def low (b : Binary) : ℚ := (b.mantissa - if b.halved then 1 / 4 else 1 / 2) * 2 ^ b.exponent

/-- The greatest fraction that may round to a number. -/
def high (b : Binary) : ℚ := (b.mantissa + 1 / 2) * 2 ^ b.exponent

/-- The fractions that round to a number. The ends of the interval belong to an even mantissa. -/
structure Rounds (b : Binary) (q : ℚ) : Prop where
  low_le : b.low ≤ q
  le_high : q ≤ b.high
  even_of_end : q = b.low ∨ q = b.high → b.mantissa % 2 = 0

end Binary

/-- The number that bits stand for. Its mantissa has a leading one except in the least place, and
only powers of two above the least place are halved. -/
theorem ofBits_eq {bits : Nat} (hpos : 0 < bits) (hfinite : bits < infinityBits) :
    ∃ place mantissa : Nat, bits = place * leadingOne + mantissa ∧ 0 < mantissa ∧
      mantissa < 2 * leadingOne ∧ (place = 0 ∨ leadingOne ≤ mantissa) ∧
      Binary.ofBits bits =
        ⟨mantissa, (place : ℤ) - 1074, decide (mantissa = leadingOne ∧ 0 < place)⟩ := by
  have hexponent : bits / leadingOne % 2048 = bits / leadingOne := by
    rw [infinityBits] at hfinite
    rw [leadingOne]
    omega
  have hdiv := Nat.div_add_mod' bits leadingOne
  have hmod : bits % leadingOne < leadingOne := Nat.mod_lt _ (by decide)
  simp only [Binary.ofBits, hexponent]
  by_cases hzero : bits / leadingOne = 0
  · -- the smallest numbers have no leading one
    have hfraction : bits % leadingOne = bits := by
      rw [hzero] at hdiv
      omega
    refine ⟨0, bits, by omega, hpos, by omega, Or.inl rfl, ?_⟩
    rw [if_pos hzero, hfraction]
    simp
  · have hone := Nat.mul_le_mul_right leadingOne (Nat.one_le_iff_ne_zero.2 hzero)
    -- the leading one is not stored and takes the place of one in the exponent
    refine ⟨bits / leadingOne - 1, bits % leadingOne + leadingOne, ?_,
      Nat.add_pos_right _ (by decide), by omega, Or.inr (by omega), ?_⟩
    · rw [Nat.sub_mul]
      omega
    · have hplace : ((bits / leadingOne : Nat) : Int) - 1075 =
          ((bits / leadingOne - 1 : Nat) : Int) - 1074 := by omega
      have hhalved : (decide (bits % leadingOne = 0) && decide (1 < bits / leadingOne)) =
          decide (bits % leadingOne + leadingOne = leadingOne ∧ 0 < bits / leadingOne - 1) := by
        rw [Bool.eq_iff_iff, Bool.and_eq_true, decide_eq_true_iff, decide_eq_true_iff,
          decide_eq_true_iff]
        omega
      rw [if_neg hzero, hplace, hhalved]

/-- All fractions in the interval of a number are rounded to its bits. -/
theorem nearestBits_of_rounds {num den : Nat} (hnum : 0 < num) (hden : 0 < den) {bits : Nat}
    (hpos : 0 < bits) (hfinite : bits < infinityBits)
    (h : (Binary.ofBits bits).Rounds (num / den)) : nearestBits num den = bits := by
  obtain ⟨place, mantissa, rfl, hm, hm', hplace, hb⟩ := ofBits_eq hpos hfinite
  rw [hb] at h
  obtain ⟨hlow, hhigh, heven⟩ := h
  -- count in units of the last place
  have hunit : (0 : ℚ) < 2 ^ ((place : ℤ) - 1074) := by positivity
  obtain ⟨t, ht⟩ : ∃ t : ℚ, (num / den : ℚ) = t * 2 ^ ((place : ℤ) - 1074) :=
    ⟨_, (div_mul_cancel₀ _ hunit.ne').symm⟩
  rw [ht, Binary.low] at hlow
  rw [ht, Binary.high] at hhigh
  rw [ht, Binary.low, Binary.high] at heven
  replace hlow := le_of_mul_le_mul_right hlow hunit
  replace hhigh := le_of_mul_le_mul_right hhigh hunit
  rw [mul_left_inj' hunit.ne', mul_left_inj' hunit.ne'] at heven
  have hmax : (mantissa : ℚ) + 1 ≤ 2 * leadingOne := by exact_mod_cast hm'
  by_cases hbelow : place = 0 ∨ (leadingOne : ℚ) ≤ t
  · refine nearestBits_eq hden ?_ ht ?_ hhigh ?_ hfinite.le
    · exact leadingBit_of_place hnum hden ht (by linarith) hbelow
    · split at hlow <;> linarith
    · rintro (hend | hend)
      · split at hlow
        · linarith
        · next hhalf =>
          rw [if_neg hhalf] at heven
          exact heven (Or.inl hend)
      · exact heven (Or.inr hend)
  · -- the quarter below a power of two is half a unit of the next smaller place
    push Not at hbelow
    obtain ⟨hne, hbelow⟩ := hbelow
    -- so far below, the mantissa can only be the least one of its place
    have hge := hplace.resolve_left hne
    have hmantissa : mantissa = leadingOne := by
      by_contra hne'
      have hmore : (leadingOne : ℚ) + 1 ≤ mantissa := by
        exact_mod_cast Nat.lt_of_le_of_ne hge (Ne.symm hne')
      split at hlow <;> linarith
    subst hmantissa
    rw [if_pos (by simpa using Nat.pos_of_ne_zero hne)] at hlow
    obtain ⟨below, rfl⟩ := Nat.exists_eq_succ_of_ne_zero hne
    have ht' : (num / den : ℚ) = 2 * t * 2 ^ ((below : ℤ) - 1074) := by
      have hexponent : ((below.succ : Nat) : ℤ) - 1074 = 1 + ((below : ℤ) - 1074) := by omega
      rw [ht, hexponent, zpow_one_add₀ two_ne_zero]
      ring
    have hcarry : below.succ * leadingOne + leadingOne = below * leadingOne + 2 * leadingOne := by
      rw [Nat.succ_mul]
      omega
    have hone : (1 : ℚ) ≤ leadingOne := by exact_mod_cast (show 1 ≤ leadingOne by decide)
    rw [hcarry] at hfinite ⊢
    refine nearestBits_eq hden ?_ ht' ?_ ?_ (fun _ => Nat.mul_mod_right 2 _) hfinite.le
    · exact leadingBit_of_place hnum hden ht' (by linarith) (Or.inr (by linarith))
    · push_cast
      linarith
    · push_cast
      linarith

end DawScript.Decimal
