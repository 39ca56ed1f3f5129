import DawScript.Proofs.FloatRange
import DawScript.Proofs.Rounding

/-!
# Integers as floating-point numbers

The number that an integer of sixty-four bits becomes in floating point is the integer rounded to
fifty-three binary digits (`stands_ofInt`). Shifting a mantissa to the right keeps exactly what
rounding needs to know of the quotient (`Keeps`), and numbers with mantissas of full length compare
as the fractions that they stand for (`Stands.compare_eq`).
-/

set_option autoImplicit false

namespace DawScript.Decimal

open Float.Model (Format UnpackedFloat)
open Float.Model.UnpackedFloat

/-! ## Rounded quotients -/

theorem roundEven_mul_right (n den : Nat) {factor : Nat} (h : 0 < factor) :
    roundEven (n * factor) (den * factor) = roundEven n den := by
  simp only [roundEven, Nat.mul_div_mul_right _ _ h, Nat.mul_mod_mul_right]
  have hlt (a b : Nat) : 2 * (a * factor) < b * factor ↔ 2 * a < b := by
    rw [← Nat.mul_assoc]
    exact Nat.mul_lt_mul_right h
  have hgt (a b : Nat) : b * factor < 2 * (a * factor) ↔ b < 2 * a := by
    rw [← Nat.mul_assoc]
    exact Nat.mul_lt_mul_right h
  simp only [hlt, hgt]

theorem roundEven_one (n : Nat) : roundEven n 1 = n := by
  simpa using roundEven_mul n Nat.one_pos

/-- Rounding keeps the order. -/
theorem roundEven_mono {a b : Nat} (den : Nat) (h : a ≤ b) :
    roundEven a den ≤ roundEven b den := by
  have hdiv := Nat.div_le_div_right (c := den) h
  have ha := Nat.div_add_mod a den
  have hb := Nat.div_add_mod b den
  rcases hdiv.lt_or_eq with hlt | heq
  · -- the rounded quotients lie between the quotients and the next numbers
    have hup : roundEven a den ≤ a / den + 1 := by
      simp only [roundEven]
      split
      · omega
      · split <;> omega
    have hdown : b / den ≤ roundEven b den := by
      simp only [roundEven]
      split
      · omega
      · split <;> omega
    omega
  · have hrest : a % den ≤ b % den := by
      rw [heq] at ha
      omega
    simp only [roundEven, heq]
    split
    · split
      · omega
      · split <;> omega
    · split
      · split
        · omega
        · split <;> omega
      · split
        · omega
        · split <;> omega

/-! ## Shifted mantissas -/

/-- A mantissa with its residual bits keeps a quotient: the whole part, whether the rest is at least
a half, and whether it is neither nothing nor a half. -/
structure Keeps (em : ExtendedMantissa) (num den : Nat) : Prop where
  mantissa : em.mantissa = num / den
  roundBit : em.roundBit = true ↔ den ≤ 2 * (num % den)
  stickyBit : em.stickyBit = true ↔ 2 * (num % den) ≠ 0 ∧ 2 * (num % den) ≠ den

theorem keeps_exact (n : Nat) : Keeps (.ofMantissaAndAccuracy n .exact) n 1 where
  mantissa := (Nat.div_one n).symm
  roundBit := by simp [ExtendedMantissa.ofMantissaAndAccuracy, Nat.mod_one]
  stickyBit := by simp [ExtendedMantissa.ofMantissaAndAccuracy, Nat.mod_one]

namespace Keeps

variable {em : ExtendedMantissa} {num den : Nat}

theorem shiftRightOne (h : Keeps em num den) (hden : 0 < den) :
    Keeps em.shiftRightOne num (den * 2) := by
  have hrest : num % (den * 2) = num % den + den * (num / den % 2) := Nat.mod_mul
  have hlt := Nat.mod_lt num hden
  have hround := h.roundBit
  have hsticky := h.stickyBit
  refine ⟨?_, ?_, ?_⟩
  · change em.mantissa / 2 = _
    rw [h.mantissa, Nat.div_div_eq_div_mul]
  · change (em.mantissa % 2 != 0) = true ↔ _
    rw [h.mantissa, bne_iff_ne, hrest]
    rcases Nat.mod_two_eq_zero_or_one (num / den) with hbit | hbit
    · simp only [hbit]
      omega
    · simp only [hbit]
      omega
  · change (em.roundBit || em.stickyBit) = true ↔ _
    rw [Bool.or_eq_true, hround, hsticky, hrest]
    rcases Nat.mod_two_eq_zero_or_one (num / den) with hbit | hbit
    · simp only [hbit]
      omega
    · simp only [hbit]
      omega

theorem shiftRight (h : Keeps em num den) (hden : 0 < den) (k : Nat) :
    Keeps (em >>> k) num (den * 2 ^ k) := by
  induction k with
  | zero =>
    rw [pow_zero, mul_one]
    exact h
  | succ k ih =>
    rw [Nat.pow_succ, ← Nat.mul_assoc]
    exact ih.shiftRightOne (Nat.mul_pos hden (Nat.two_pow_pos k))

/-- What is kept of a quotient is rounded as the quotient is. -/
theorem roundedMantissa (h : Keeps em num den) : em.roundedMantissa = roundEven num den := by
  obtain ⟨m, round, sticky⟩ := em
  have hmantissa : m = num / den := h.mantissa
  have hround : round = true ↔ den ≤ 2 * (num % den) := h.roundBit
  have hsticky : sticky = true ↔ 2 * (num % den) ≠ 0 ∧ 2 * (num % den) ≠ den := h.stickyBit
  subst hmantissa
  simp only [roundEven]
  cases round with
  | false =>
    have hless : 2 * (num % den) < den := by simpa using hround
    rw [if_pos hless]
    cases sticky <;> rfl
  | true =>
    have hmore : den ≤ 2 * (num % den) := hround.1 rfl
    rw [if_neg (by omega)]
    cases sticky with
    | false =>
      rw [if_neg (by simp at hsticky; omega)]
      rfl
    | true =>
      rw [if_pos (by simp at hsticky; omega)]
      rfl

end Keeps

theorem roundedMantissa_shiftRight (n k : Nat) :
    (ExtendedMantissa.ofMantissaAndAccuracy n .exact >>> k).roundedMantissa =
      roundEven n (2 ^ k) := by
  have hkeeps := (keeps_exact n).shiftRight Nat.one_pos k
  rw [Nat.one_mul] at hkeeps
  exact hkeeps.roundedMantissa

/-- A quotient by the power of two that leaves fifty-three digits is rounded to a number with that
many, or to the first one with more. -/
theorem roundEven_bounds {m : Nat} (hlog : 52 ≤ m.log2) :
    2 ^ 52 ≤ roundEven m (2 ^ (m.log2 - 52)) ∧ roundEven m (2 ^ (m.log2 - 52)) ≤ 2 ^ 53 := by
  have hpos : m ≠ 0 := by
    rintro rfl
    simp at hlog
  have hplace : 0 < 2 ^ (m.log2 - 52) := Nat.two_pow_pos _
  have hlow : 2 ^ 52 * 2 ^ (m.log2 - 52) ≤ m := by
    rw [← Nat.pow_add, Nat.add_sub_cancel' hlog]
    exact Nat.log2_self_le hpos
  have hhigh : m ≤ 2 ^ 53 * 2 ^ (m.log2 - 52) := by
    have hexponent : 53 + (m.log2 - 52) = m.log2 + 1 := by omega
    rw [← Nat.pow_add, hexponent]
    exact Nat.lt_log2_self.le
  have hrounded := roundEven_mono (2 ^ (m.log2 - 52)) hlow
  have hrounded' := roundEven_mono (2 ^ (m.log2 - 52)) hhigh
  rw [roundEven_mul _ hplace] at hrounded hrounded'
  exact ⟨hrounded, hrounded'⟩

/-! ## Numbers with mantissas of full length -/

/-- A number is zero, or has a mantissa of exactly fifty-three bits and an exponent from `-52` to
`k`; and it stands for a fraction. -/
inductive Stands (k : Int) : UnpackedFloat → ℚ → Prop where
  | zero (s : Sign) : Stands k (.zero s) 0
  | finite (s : Sign) {m : Nat} {e : Int} (hm : 0 < m) (hlow : 2 ^ 52 ≤ m) (hhigh : m < 2 ^ 53)
      (he : -52 ≤ e) (he' : e ≤ k) : Stands k (.finite s m e hm) ((s.apply m : Int) * 2 ^ e)

theorem log2_of_full {m : Nat} (hlow : 2 ^ 52 ≤ m) (hhigh : m < 2 ^ 53) : m.log2 = 52 :=
  (Nat.log2_eq_iff (by omega)).2 ⟨hlow, hhigh⟩

/-- Shifting to the target exponent leaves fifty-three bits of a long mantissa. -/
theorem shiftToTargetExponent_eq {m : Nat} {e : Int} (hlog : 52 ≤ m.log2) (he : -1074 ≤ e) :
    shiftToTargetExponent Format.binary64 m e .exact =
      (ExtendedMantissa.ofMantissaAndAccuracy m .exact >>> (m.log2 - 52),
        e + (m.log2 - 52 : Nat)) := by
  have hshift : (Format.binary64.targetExponent (Float.Model.totalExponent m e) - e).toNat =
      m.log2 - 52 := by
    simp only [Format.targetExponent, Float.Model.totalExponent, Format.mantissaBits,
      Format.minExponent]
    omega
  simp only [shiftToTargetExponent, shiftToExponent, hshift]

/-- Rounding leaves fifty-three bits of a long mantissa, and may carry into one more. -/
theorem stands_roundWithAccuracy (s : Sign) {m : Nat} {e k : Int} (hlog : 52 ≤ m.log2)
    (he : -1074 ≤ e) (hplace : -52 ≤ e + (m.log2 - 52 : Nat))
    (he' : e + (m.log2 - 52 : Nat) ≤ k) :
    Stands (k + 1) (roundWithAccuracy Format.binary64 s m e .exact)
      ((s.apply (roundEven m (2 ^ (m.log2 - 52))) : Int) * 2 ^ (e + (m.log2 - 52 : Nat))) := by
  obtain ⟨hlow, hhigh⟩ := roundEven_bounds hlog
  rw [roundWithAccuracy, shiftToTargetExponent_eq hlog he]
  dsimp only
  rw [roundedMantissa_shiftRight]
  generalize roundEven m (2 ^ (m.log2 - 52)) = rounded at hlow hhigh
  generalize hexponent : e + (m.log2 - 52 : Nat) = exponent at hplace he'
  rcases hhigh.lt_or_eq with hlt | rfl
  · have hfull := log2_of_full hlow hlt
    have hfinal : shiftToTargetExponent Format.binary64 rounded exponent .exact =
        (⟨rounded, false, false⟩, exponent) := by
      rw [shiftToTargetExponent_eq hfull.ge (by omega), hfull]
      simp
      rfl
    rw [hfinal]
    dsimp only
    rw [dif_neg (by omega)]
    exact .finite s _ hlow hlt (by omega) (by omega)
  · -- rounding up has carried into one more bit, which is zero
    have hfinal : shiftToTargetExponent Format.binary64 (2 ^ 53) exponent .exact =
        (⟨2 ^ 52, false, false⟩, exponent + 1) := by
      rw [shiftToTargetExponent_eq (by decide) (by omega)]
      rfl
    rw [hfinal]
    dsimp only
    rw [dif_neg (by decide)]
    have hvalue : ((s.apply ((2 ^ 53 : Nat) : Int) : Int) : ℚ) * 2 ^ exponent =
        ((s.apply ((2 ^ 52 : Nat) : Int) : Int) : ℚ) * 2 ^ (exponent + 1) := by
      rw [zpow_add_one₀ two_ne_zero]
      cases s
      · simp only [Sign.apply]
        push_cast
        ring
      · simp only [Sign.apply]
        push_cast
        ring
    rw [hvalue]
    exact .finite s _ (by decide) (by decide) (by omega) (by omega)

/-! ## Packed numbers -/

theorem pack_full (s : Sign) {m : Nat} {e : Int} (hm : 0 < m) (hlow : 2 ^ 52 ≤ m)
    (hhigh : m < 2 ^ 53) (he' : e ≤ 971) :
    pack Format.binary64 (.finite s m e hm) =
      components s (BitVec.ofNat 11 (e + 1075).toNat) (BitVec.ofNat 52 m) := by
  have hbias : Format.binary64.exponentBias = 1023 := by decide
  have hexponent : e + (1023 : Nat) + (52 : Nat) = e + 1075 := by omega
  have hfull : m.log2 + 1 = Format.binary64.mantissaBits := by
    rw [log2_of_full hlow hhigh]
    rfl
  simp only [pack, hbias]
  rw [if_neg (by omega), if_pos hfull, hexponent]

theorem unpack_full (s : Sign) {m : Nat} {e : Int} (hm : 0 < m) (hlow : 2 ^ 52 ≤ m)
    (hhigh : m < 2 ^ 53) (he : -1074 ≤ e) (he' : e ≤ 971) :
    unpack Format.binary64
      (components s (BitVec.ofNat 11 (e + 1075).toNat) (BitVec.ofNat 52 m)) =
        .finite s m e hm := by
  have hexponent : (BitVec.ofNat 11 (e + 1075).toNat).toNat = (e + 1075).toNat := by
    rw [BitVec.toNat_ofNat, Nat.mod_eq_of_lt (by omega)]
  have hones : BitVec.ofNat 11 (e + 1075).toNat ≠ -1#11 := by
    intro h
    have hnat := congrArg BitVec.toNat h
    rw [hexponent] at hnat
    simp at hnat
    omega
  have hzeros : BitVec.ofNat 11 (e + 1075).toNat ≠ 0#11 := by
    intro h
    have hnat := congrArg BitVec.toNat h
    rw [hexponent] at hnat
    simp at hnat
    omega
  -- the leading bit is not stored, and the others are what is left without it
  have hmantissa : (1#1 ++ BitVec.ofNat 52 m).toNat = m := by
    have hrest : (BitVec.ofNat 52 m).toNat = m - 2 ^ 52 := by
      rw [BitVec.toNat_ofNat]
      omega
    have hone : (1#1).toNat = 1 := rfl
    rw [toNat_append, hrest, hone]
    omega
  have hplace : ((e + 1075).toNat : Int) - ((1023 : Nat) + (52 : Nat)) = e := by omega
  have hbias : Format.binary64.exponentBias = 1023 := by decide
  simp only [unpack, components, unpackSign_packComponents, unpackMantissa_packComponents,
    unpackExponent_packComponents, Sign.ofBitVec_toBitVec]
  rw [if_neg hones, if_neg hzeros]
  simp only [hmantissa, hexponent, hbias, hplace]

namespace Stands

variable {x : UnpackedFloat} {v : ℚ} {k l : Int}

theorem mono (h : Stands k x v) (hle : k ≤ l) : Stands l x v := by
  cases h with
  | zero s => exact .zero s
  | finite s hm hlow hhigh he he' => exact .finite s hm hlow hhigh he (he'.trans hle)

/-- Numbers with mantissas of full length survive packing. -/
theorem unpack_pack (h : Stands k x v) (hk : k ≤ 971) :
    unpack Format.binary64 (pack Format.binary64 x) = x := by
  cases h with
  | zero s => cases s <;> rfl
  | finite s hm hlow hhigh he he' =>
    rw [pack_full s hm hlow hhigh (he'.trans hk)]
    exact unpack_full s hm hlow hhigh (by omega) (he'.trans hk)

theorem unpack_ofModel (h : Stands k x v) (hk : k ≤ 971) :
    Stands k (Float.ofModel (.pack x)).toModel.unpack v := by
  have hpacked : (Float.ofModel (.pack x)).toModel.unpack = x := h.unpack_pack hk
  rw [hpacked]
  exact h

theorem neg (h : Stands k x v) : Stands k x.neg (-v) := by
  cases h with
  | zero s =>
    rw [neg_zero]
    exact .zero (-s)
  | @finite s m e hm hlow hhigh he he' =>
    have hvalue : -(((s.apply m : Int) : ℚ) * 2 ^ e) = (((-s).apply m : Int) : ℚ) * 2 ^ e := by
      cases s
      · change _ = ((m : Int) : ℚ) * 2 ^ e
        simp [Sign.apply]
      · change _ = ((-(m : Int) : Int) : ℚ) * 2 ^ e
        simp [Sign.apply]
    rw [hvalue]
    exact .finite (-s) hm hlow hhigh he he'

end Stands

/-! ## Comparing -/

theorem cmp_neg_neg (v w : ℚ) : cmp (-v) (-w) = (cmp v w).swap := by
  rw [cmp_swap]
  rcases lt_trichotomy v w with h | rfl | h
  · rw [(neg_lt_neg h).cmp_eq_gt, h.cmp_eq_gt]
  · rw [cmp_self_eq_eq, cmp_self_eq_eq]
  · rw [(neg_lt_neg h).cmp_eq_lt, h.cmp_eq_lt]

/-- Of two mantissas of full length the one with the greater exponent stands for more. -/
theorem full_lt_full {m m' : Nat} {e e' : Int} (hhigh : m < 2 ^ 53) (hlow : 2 ^ 52 ≤ m')
    (h : e < e') : (m : ℚ) * 2 ^ e < m' * 2 ^ e' := by
  have hm : (m : ℚ) < 2 ^ 53 := by exact_mod_cast hhigh
  have hm' : (2 : ℚ) ^ 52 ≤ m' := by exact_mod_cast hlow
  calc (m : ℚ) * 2 ^ e < 2 ^ 53 * 2 ^ e := by gcongr
    _ = 2 ^ 52 * 2 ^ (e + 1) := by
      rw [zpow_add_one₀ two_ne_zero]
      ring
    _ ≤ 2 ^ 52 * 2 ^ e' := by
      gcongr
      · norm_num
      · omega
    _ ≤ m' * 2 ^ e' := by gcongr

theorem compare_full {m m' : Nat} {e e' : Int} (hlow : 2 ^ 52 ≤ m) (hhigh : m < 2 ^ 53)
    (hlow' : 2 ^ 52 ≤ m') (hhigh' : m' < 2 ^ 53) :
    (compare e e').then (compare m m') = cmp ((m : ℚ) * 2 ^ e) (m' * 2 ^ e') := by
  rcases lt_trichotomy e e' with h | rfl | h
  · rw [(full_lt_full hhigh hlow' h).cmp_eq_lt, Int.compare_eq_lt.2 h]
    rfl
  · -- with one exponent the mantissas decide
    rw [cmp_mul_pos_right (by positivity), Int.compare_eq_eq.2 rfl]
    change compare m m' = _
    rcases lt_trichotomy m m' with h | rfl | h
    · rw [Nat.compare_eq_lt.2 h, (Nat.cast_lt.2 h).cmp_eq_lt]
    · rw [Nat.compare_eq_eq.2 rfl, cmp_self_eq_eq]
    · rw [Nat.compare_eq_gt.2 h, (Nat.cast_lt.2 h).cmp_eq_gt]
  · rw [(full_lt_full hhigh' hlow h).cmp_eq_gt, Int.compare_eq_gt.2 h]
    rfl

theorem apply_positive_mul (m : Nat) (e : Int) :
    ((Sign.positive.apply m : Int) : ℚ) * 2 ^ e = m * 2 ^ e := by
  simp [Sign.apply]

theorem apply_negative_mul (m : Nat) (e : Int) :
    ((Sign.negative.apply m : Int) : ℚ) * 2 ^ e = -(m * 2 ^ e) := by
  simp [Sign.apply]

/-- Numbers compare as the fractions that they stand for. -/
theorem Stands.compare_eq {k l : Int} {x y : UnpackedFloat} {v w : ℚ} (h : Stands k x v)
    (h' : Stands l y w) :
    x.compare y = some (cmp v w) := by
  have hpositive {m : Nat} (hm : 0 < m) (e : Int) :
      0 < ((Sign.positive.apply m : Int) : ℚ) * 2 ^ e := by
    rw [apply_positive_mul]
    positivity
  have hnegative {m : Nat} (hm : 0 < m) (e : Int) :
      ((Sign.negative.apply m : Int) : ℚ) * 2 ^ e < 0 := by
    rw [apply_negative_mul, neg_lt_zero]
    positivity
  cases h with
  | zero s =>
    cases h' with
    | zero s' =>
      rw [cmp_self_eq_eq]
      cases s <;> cases s' <;> rfl
    | finite s' hm' _ _ _ _ =>
      cases s' with
      | positive =>
        rw [(hpositive hm' _).cmp_eq_lt]
        cases s <;> rfl
      | negative =>
        rw [(hnegative hm' _).cmp_eq_gt]
        cases s <;> rfl
  | @finite s m e hm hlow hhigh _ _ =>
    cases h' with
    | zero s' =>
      cases s with
      | positive =>
        rw [(hpositive hm _).cmp_eq_gt]
        cases s' <;> rfl
      | negative =>
        rw [(hnegative hm _).cmp_eq_lt]
        cases s' <;> rfl
    | @finite s' m' e' hm' hlow' hhigh' _ _ =>
      cases s with
      | positive =>
        cases s' with
        | positive =>
          rw [apply_positive_mul, apply_positive_mul, ← compare_full hlow hhigh hlow' hhigh']
          rfl
        | negative =>
          rw [((hnegative hm' _).trans (hpositive hm _)).cmp_eq_gt]
          rfl
      | negative =>
        cases s' with
        | positive =>
          rw [((hnegative hm _).trans (hpositive hm' _)).cmp_eq_lt]
          rfl
        | negative =>
          rw [apply_negative_mul, apply_negative_mul, cmp_neg_neg,
            ← compare_full hlow hhigh hlow' hhigh']
          rfl

/-! ## Integers -/

/-- A natural number rounded to fifty-three binary digits, a half to the even neighbour. -/
def roundedNat (n : Nat) : Nat := roundEven n (2 ^ (n.log2 - 52)) * 2 ^ (n.log2 - 52)

/-- An integer rounded to fifty-three binary digits, a half to the even neighbour. -/
def roundedInt (n : Int) : Int := n.sign * roundedNat n.natAbs

theorem roundedInt_natCast (n : Nat) : roundedInt n = roundedNat n := by
  rcases Nat.eq_zero_or_pos n with rfl | hpos
  · rfl
  · rw [roundedInt, Int.natAbs_natCast, Int.sign_eq_one_of_pos (by omega), one_mul]

/-- The product of a number and one stands for the same fraction. -/
theorem Stands.mul_one {k : Int} {x : UnpackedFloat} {v : ℚ} (h : Stands k x v) :
    Stands (k + 1) (mul Format.binary64 x (.finite .positive (2 ^ 52) (-52) (by decide))) v := by
  cases h with
  | zero s => exact .zero _
  | @finite s m e hm hlow hhigh he he' =>
    have hlog : (m * 2 ^ 52).log2 = 104 :=
      (Nat.log2_eq_iff (by positivity)).2 ⟨by omega, by omega⟩
    have hproduct := stands_roundWithAccuracy (s * .positive) (m := m * 2 ^ 52) (e := e + -52)
      (k := k) (by omega) (by omega) (by omega) (by omega)
    have hexponent : e + -52 + (104 - 52 : Nat) = e := by omega
    have hsign : s * .positive = s := by cases s <;> rfl
    rw [hlog, roundEven_mul m (by positivity), hexponent, hsign] at hproduct
    change Stands _ (roundWithAccuracy Format.binary64 (s * .positive) (m * 2 ^ 52) (e + -52)
      .exact) _
    rw [hsign]
    exact hproduct

theorem log2_mul_two_pow {n : Nat} (hn : n ≠ 0) (k : Nat) : (n * 2 ^ k).log2 = n.log2 + k := by
  induction k with
  | zero => simp
  | succ k ih =>
    have hne : n * 2 ^ k ≠ 0 := Nat.mul_ne_zero hn (Nat.two_pow_pos k).ne'
    rw [Nat.pow_succ, ← Nat.mul_assoc, Nat.mul_comm _ 2, Nat.log2_two_mul hne, ih, Nat.add_assoc]

/-- A natural number of at most fifty-three bits stands for itself. -/
theorem stands_ofNat {n : Nat} (hn : n < 2 ^ 53) :
    Stands 1 (UnpackedFloat.ofNat Format.binary64 n) n := by
  rcases Nat.eq_zero_or_pos n with rfl | hpos
  · exact .zero .positive
  have hlog : n.log2 ≤ 52 := Nat.le_of_lt_succ ((Nat.log2_lt hpos.ne').2 hn)
  have hcompare : compare (n : Int) 0 = .gt := Int.compare_eq_gt.2 (by omega)
  -- the number is first brought to full length, and there is nothing to round then
  have hround : UnpackedFloat.round Format.binary64 .positive n 0 =
      roundWithAccuracy Format.binary64 .positive (n <<< (52 - n.log2)) (0 - (52 - n.log2 : Nat))
        .exact := by
    have hzeros : (0 - Format.binary64.targetExponent (Float.Model.totalExponent n 0)).toNat =
        52 - n.log2 := by
      simp only [Float.Model.totalExponent, Format.targetExponent, Format.minExponent,
        Format.mantissaBits]
      omega
    simp only [UnpackedFloat.round, decreaseExponent, hzeros]
  have hfull : (n * 2 ^ (52 - n.log2)).log2 = 52 := by
    rw [log2_mul_two_pow hpos.ne']
    omega
  have hstands := stands_roundWithAccuracy .positive (m := n * 2 ^ (52 - n.log2))
    (e := 0 - (52 - n.log2 : Nat)) (k := 0) hfull.ge (by omega) (by omega) (by omega)
  have hvalue : ((Sign.positive.apply (n * 2 ^ (52 - n.log2) : Nat) : Int) : ℚ) *
      2 ^ (0 - ((52 - n.log2 : Nat) : Int) + (0 : Nat)) = n := by
    rw [apply_positive_mul]
    push_cast
    rw [add_zero, zero_sub, zpow_neg, zpow_natCast, mul_assoc, mul_inv_cancel₀ (by positivity),
      mul_one]
  rw [hfull, Nat.sub_self, pow_zero, roundEven_one, hvalue] at hstands
  rw [UnpackedFloat.ofNat, UnpackedFloat.ofInt, UnpackedFloat.normalize, hcompare]
  change Stands _ (UnpackedFloat.round Format.binary64 .positive n 0) _
  rw [hround, Nat.shiftLeft_eq]
  exact hstands

/-- A natural number taken as a decimal without a fraction is rounded. -/
theorem stands_ofScientific {n : Nat} (hlow : 2 ^ 53 ≤ n) (hhigh : n ≤ 2 ^ 64) :
    Stands 13 (UnpackedFloat.ofScientific Format.binary64 n 0) (roundedNat n) := by
  have hne : n ≠ 0 := by omega
  have hlog : 53 ≤ n.log2 := (Nat.le_log2 hne).2 hlow
  have hlog' : n.log2 < 65 := (Nat.log2_lt hne).2 (by omega)
  have hfull : (n * 2 ^ 53).log2 = n.log2 + 53 := log2_mul_two_pow hne 53
  have hstands := stands_roundWithAccuracy .positive (m := n * 2 ^ 53) (e := -53 + 0) (k := 12)
    (by omega) (by omega) (by omega) (by omega)
  have hplace : 2 ^ (n.log2 + 53 - 52) = 2 ^ (n.log2 - 52) * 2 ^ 53 := by
    rw [← Nat.pow_add]
    congr 1
    omega
  have hexponent : (-53 + 0 + (n.log2 + 53 - 52 : Nat) : Int) = (n.log2 - 52 : Nat) := by omega
  rw [hfull, hplace, roundEven_mul_right _ _ (by positivity), hexponent, apply_positive_mul,
    zpow_natCast] at hstands
  have hvalue : (roundedNat n : ℚ) =
      roundEven n (2 ^ (n.log2 - 52)) * 2 ^ (n.log2 - 52) := by
    rw [roundedNat]
    push_cast
    rfl
  rw [ofScientific_zero hne, Nat.mul_one, Nat.shiftLeft_eq, hvalue]
  exact hstands

/-- Natural numbers of at most fifty-three bits are not rounded. -/
theorem roundedNat_of_lt {n : Nat} (hn : n < 2 ^ 53) : roundedNat n = n := by
  have hlog : n.log2 - 52 = 0 := by
    rcases Nat.eq_zero_or_pos n with rfl | hpos
    · simp
    · have hlt := (Nat.log2_lt hpos.ne').2 hn
      omega
  rw [roundedNat, hlog, pow_zero, roundEven_one, Nat.mul_one]

/-- The number nearest to a natural number stands for the rounded one. -/
theorem stands_toFloat {n : Nat} (hn : n ≤ 2 ^ 64) :
    Stands 13 (Float.ofNat n).toModel.unpack (roundedNat n) := by
  change Stands _ (Float.ofScientific n false 0).toModel.unpack _
  rw [Float.ofScientific]
  split
  · next hsmall =>
    -- such a number is multiplied by one
    have hlt : n.toUInt64.toNat = n := by
      have := hsmall.1
      simp
      omega
    have hword : Stands 1 (UnpackedFloat.ofNat Format.binary64 n.toUInt64.toNat) n := by
      rw [hlt]
      exact stands_ofNat hsmall.1
    have hnumber : Stands 1 n.toUInt64.toFloat.toModel.unpack n := hword.unpack_ofModel (by decide)
    have hproduct : Stands 2 (Float.ofModel (.pack (mul Format.binary64
        n.toUInt64.toFloat.toModel.unpack (Float.ofBits 0x3FF0000000000000).toModel.unpack))
          ).toModel.unpack n := hnumber.mul_one.unpack_ofModel (by decide)
    rw [roundedNat_of_lt hsmall.1]
    exact hproduct.mono (by decide)
  · next hlarge =>
    have hlow : 2 ^ 53 ≤ n := by
      by_contra h
      exact hlarge ⟨Nat.lt_of_not_le h, by decide⟩
    exact (stands_ofScientific hlow hn).unpack_ofModel (by decide)

/-- The number nearest to an integer stands for the rounded one. -/
theorem stands_ofInt {n : Int} (hlow : -2 ^ 64 ≤ n) (hhigh : n ≤ 2 ^ 64) :
    Stands 13 (Float.ofInt n).toModel.unpack (roundedInt n) := by
  cases n with
  | ofNat n =>
    have hvalue : ((roundedInt n : Int) : ℚ) = roundedNat n := by
      rw [roundedInt_natCast]
      rfl
    change Stands _ (Float.ofNat n).toModel.unpack (roundedInt n)
    rw [hvalue]
    exact stands_toFloat (Int.ofNat_le.1 hhigh)
  | negSucc n =>
    have hvalue : ((roundedInt (.negSucc n) : Int) : ℚ) = -roundedNat (n + 1) := by
      rw [roundedInt]
      simp
    rw [hvalue]
    exact (stands_toFloat (by omega)).neg.unpack_ofModel (by decide)

/-! ## Order of rounded integers -/

theorem roundedNat_bounds {n : Nat} (hlog : 52 ≤ n.log2) :
    2 ^ n.log2 ≤ roundedNat n ∧ roundedNat n ≤ 2 ^ (n.log2 + 1) := by
  obtain ⟨hlow, hhigh⟩ := roundEven_bounds hlog
  have hlow' : 2 ^ n.log2 = 2 ^ 52 * 2 ^ (n.log2 - 52) := by
    rw [← Nat.pow_add, Nat.add_sub_cancel' hlog]
  have hhigh' : 2 ^ (n.log2 + 1) = 2 ^ 53 * 2 ^ (n.log2 - 52) := by
    rw [← Nat.pow_add]
    congr 1
    omega
  rw [hlow', hhigh', roundedNat]
  exact ⟨Nat.mul_le_mul_right _ hlow, Nat.mul_le_mul_right _ hhigh⟩

/-- Rounding to fifty-three digits keeps the order. -/
theorem roundedNat_mono {a b : Nat} (h : a ≤ b) : roundedNat a ≤ roundedNat b := by
  by_cases hb : b < 2 ^ 53
  · rw [roundedNat_of_lt (h.trans_lt hb), roundedNat_of_lt hb]
    exact h
  have hlogb : 53 ≤ b.log2 := (Nat.le_log2 (by omega)).2 (Nat.le_of_not_lt hb)
  have hlow := (roundedNat_bounds (Nat.le_of_succ_le hlogb)).1
  by_cases ha : a < 2 ^ 53
  · have hpow : 2 ^ 53 ≤ 2 ^ b.log2 := Nat.pow_le_pow_right (by decide) hlogb
    rw [roundedNat_of_lt ha]
    omega
  have hloga : 53 ≤ a.log2 := (Nat.le_log2 (by omega)).2 (Nat.le_of_not_lt ha)
  have hhigh := (roundedNat_bounds (Nat.le_of_succ_le hloga)).2
  have hlog : a.log2 ≤ b.log2 :=
    (Nat.le_log2 (by omega)).2 ((Nat.log2_self_le (by omega)).trans h)
  rcases hlog.lt_or_eq with hlt | heq
  · -- a power of two lies between numbers with different leading bits
    calc roundedNat a ≤ 2 ^ (a.log2 + 1) := hhigh
      _ ≤ 2 ^ b.log2 := Nat.pow_le_pow_right (by decide) hlt
      _ ≤ roundedNat b := hlow
  · rw [roundedNat, roundedNat, heq]
    exact Nat.mul_le_mul_right _ (roundEven_mono _ h)

theorem roundedNat_of_le {n : Nat} (hn : n ≤ 2 ^ 53) : roundedNat n = n := by
  rcases hn.lt_or_eq with hlt | rfl
  · exact roundedNat_of_lt hlt
  · decide

theorem roundedInt_neg (n : Int) : roundedInt (-n) = -roundedInt n := by
  rw [roundedInt, roundedInt, Int.natAbs_neg, Int.sign_neg, neg_mul]

/-- Rounding an integer to fifty-three digits keeps the order. -/
theorem roundedInt_mono {a b : Int} (h : a ≤ b) : roundedInt a ≤ roundedInt b := by
  have hnonneg (n : Nat) : 0 ≤ roundedInt n := by
    rw [roundedInt_natCast]
    exact Int.natCast_nonneg _
  obtain ⟨m, rfl | rfl⟩ := a.eq_nat_or_neg
  · obtain ⟨n, rfl⟩ := Int.eq_ofNat_of_zero_le ((Int.natCast_nonneg m).trans h)
    rw [roundedInt_natCast, roundedInt_natCast]
    exact Int.ofNat_le.2 (roundedNat_mono (Int.ofNat_le.1 h))
  · obtain ⟨n, rfl | rfl⟩ := b.eq_nat_or_neg
    · rw [roundedInt_neg]
      have hm := hnonneg m
      have hn := hnonneg n
      omega
    · rw [roundedInt_neg, roundedInt_neg, roundedInt_natCast, roundedInt_natCast]
      exact neg_le_neg (Int.ofNat_le.2 (roundedNat_mono (by omega)))

/-- Integers of at most fifty-three bits are not rounded. -/
theorem roundedInt_of_le {n : Int} (hlow : -2 ^ 53 ≤ n) (hhigh : n ≤ 2 ^ 53) :
    roundedInt n = n := by
  obtain ⟨m, rfl | rfl⟩ := n.eq_nat_or_neg
  · rw [roundedInt_natCast, roundedNat_of_le (by omega)]
  · rw [roundedInt_neg, roundedInt_natCast, roundedNat_of_le (by omega)]

end DawScript.Decimal
