import DawScript.Proofs.FloatBits

/-!
# The range of floating-point numbers

Rounding raises the exponent of a number by no more than twice its bits
(`Bounded.roundWithAccuracy`), and a number with a small exponent is not packed into infinity
(`isFinite_ofModel_pack`). So the numbers nearest to integers of sixty-four bits are finite
(`isFinite_ofInt`).
-/

set_option autoImplicit false

namespace DawScript.Decimal

open Float.Model (Format UnpackedFloat)
open Float.Model.UnpackedFloat

/-- A number is zero, or finite with an exponent of at most `k`. -/
inductive Bounded (k : Int) : UnpackedFloat → Prop where
  | zero (s : Sign) : Bounded k (.zero s)
  | finite (s : Sign) {m : Nat} {e : Int} (hm : 0 < m) (he : e ≤ k) : Bounded k (.finite s m e hm)

/-! ## Rounding -/

section Rounding

variable {b m : Nat} {e k : Int}

theorem mantissa_shiftRight_le (em : ExtendedMantissa) (n : Nat) :
    (em >>> n).mantissa ≤ em.mantissa := by
  induction n with
  | zero => exact Nat.le_refl _
  | succ n ih => exact (Nat.div_le_self _ 2).trans ih

theorem roundedMantissa_le (em : ExtendedMantissa) : em.roundedMantissa ≤ em.mantissa + 1 := by
  rw [ExtendedMantissa.roundedMantissa]
  cases em.accuracy with
  | exact => exact Nat.le_succ _
  | inexact half =>
    cases half with
    | eq => exact Nat.add_le_add_left (Nat.le_of_lt_succ (Nat.mod_lt _ (by decide))) _
    | _ => simp [Accuracy.roundToNearestEven]

/-- Shifting a number below `2 ^ b` to its target exponent lowers the mantissa and raises the
exponent by at most `b`. -/
theorem shiftToTargetExponent_le (hm : m ≤ 2 ^ b) (he : e ≤ k) (hk : 0 ≤ k) :
    (shiftToTargetExponent Format.binary64 m e .exact).1.mantissa ≤ m ∧
      (shiftToTargetExponent Format.binary64 m e .exact).2 ≤ k + b := by
  have hlog : m.log2 ≤ b := by
    rcases Nat.eq_zero_or_pos m with rfl | hpos
    · simp
    · refine Nat.le_of_lt_succ ((Nat.log2_lt hpos.ne').2 (hm.trans_lt ?_))
      exact Nat.pow_lt_pow_right (by decide) b.lt_succ_self
  refine ⟨mantissa_shiftRight_le _ _, ?_⟩
  simp only [shiftToTargetExponent, shiftToExponent, Float.Model.totalExponent,
    Format.targetExponent, Format.minExponent, Format.mantissaBits]
  omega

/-- Rounding a number below `2 ^ b` raises its exponent by at most `2 * b`. -/
theorem Bounded.roundWithAccuracy (s : Sign) (hm : m < 2 ^ b) (he : e ≤ k) (hk : 0 ≤ k) :
    Bounded (k + b + b) (roundWithAccuracy Format.binary64 s m e .exact) := by
  obtain ⟨hmantissa, hexponent⟩ := shiftToTargetExponent_le hm.le he hk
  -- rounding up may carry into one more bit, after which the number is shifted once more
  have hrounded := (roundedMantissa_le _).trans (Nat.succ_le_of_lt (hmantissa.trans_lt hm))
  have hfinal := (shiftToTargetExponent_le hrounded hexponent (by omega)).2
  rw [UnpackedFloat.roundWithAccuracy]
  dsimp only
  split
  · exact .zero s
  · exact .finite s _ hfinal

/-- The number nearest to an integer below `2 ^ b` has an exponent below twice the bits that it is
rounded from. -/
theorem Bounded.ofNat {n : Nat} (hn : n < 2 ^ b) :
    Bounded ((b + 52 : Nat) + (b + 52 : Nat)) (UnpackedFloat.ofNat Format.binary64 n) := by
  rcases Nat.eq_zero_or_pos n with rfl | hpos
  · exact .zero .positive
  have hcompare : compare (n : Int) 0 = .gt := compare_gt_iff_gt.2 (by omega)
  rw [UnpackedFloat.ofNat, UnpackedFloat.ofInt, UnpackedFloat.normalize, hcompare]
  -- the integer is first brought to full length, which takes at most `52` zeros
  obtain ⟨zeros, hzeros, hround⟩ : ∃ zeros ≤ 52, UnpackedFloat.round Format.binary64 .positive n 0 =
        UnpackedFloat.roundWithAccuracy Format.binary64 .positive (n <<< zeros) (0 - zeros)
          .exact := by
    refine ⟨_, ?_, rfl⟩
    simp only [Float.Model.totalExponent, Format.targetExponent, Format.minExponent,
      Format.mantissaBits]
    omega
  have hshift : n <<< zeros < 2 ^ (b + 52) := by
    rw [Nat.shiftLeft_eq, Nat.pow_add]
    exact Nat.mul_lt_mul_of_lt_of_le hn (Nat.pow_le_pow_right (by decide) hzeros) (by positivity)
  have hbounded := Bounded.roundWithAccuracy .positive hshift (e := 0 - zeros) (k := 0) (by omega)
    (by omega)
  rw [← hround, zero_add] at hbounded
  exact hbounded

end Rounding

/-! ## Packing -/

section Packing

/-- A number is zero, or finite with at most `53` bits and an exponent of at most `k`. -/
inductive Compact (k : Int) : UnpackedFloat → Prop where
  | zero (s : Sign) : Compact k (.zero s)
  | finite (s : Sign) {m : Nat} {e : Int} (hm : 0 < m) (hlt : m < 2 ^ 53) (he : e ≤ k) :
    Compact k (.finite s m e hm)

variable {x : UnpackedFloat} {k : Int}

theorem Compact.isFinite (h : Compact k x) : x.isFinite = true := by
  cases h <;> rfl

theorem compact_unpack_components {e : BitVec 11} (he : e.toNat < 2047)
    (hk : (e.toNat : Int) ≤ k + 1075) (hk' : -1074 ≤ k) (s : Sign) (m : BitVec 52) :
    Compact k (unpack Format.binary64 (components s e m)) := by
  have hones : e ≠ -1#11 := fun h => by simp [h] at he
  simp only [unpack, components, unpackSign_packComponents, unpackMantissa_packComponents,
    unpackExponent_packComponents, Sign.ofBitVec_toBitVec]
  rw [if_neg hones]
  split
  · split
    · exact .zero s
    · refine .finite s _ (m.isLt.trans (by decide)) ?_
      subst e
      exact hk'
  · refine .finite s _ (1#1 ++ m).isLt ?_
    simp only [Format.exponentBias]
    omega

/-- A number with a small exponent is packed with one. -/
theorem pack_finite (s : Sign) {m : Nat} {e : Int} (hm : 0 < m) (h : e ≤ k) (hk : -1074 ≤ k)
    (hk' : k ≤ 970) :
    ∃ (e' : BitVec 11) (m' : BitVec 52),
      pack Format.binary64 (.finite s m e hm) = components s e' m' ∧
        e'.toNat < 2047 ∧ (e'.toNat : Int) ≤ k + 1075 := by
  have hbias : Format.binary64.exponentBias = 1023 := by decide
  have hbiased : (e + (1023 : Nat) + (52 : Nat)).toNat < 2047 ∧
      ((e + (1023 : Nat) + (52 : Nat)).toNat : Int) ≤ k + 1075 := by omega
  simp only [pack, hbias]
  by_cases hlog : m.log2 + 1 = Format.binary64.mantissaBits
  · refine ⟨_, _, (if_neg (by omega)).trans (if_pos hlog), ?_⟩
    rw [BitVec.toNat_ofNat, Nat.mod_eq_of_lt (by omega)]
    exact hbiased
  · refine ⟨_, _, (if_neg (by omega)).trans (if_neg hlog), by decide, ?_⟩
    rw [BitVec.toNat_ofNat]
    omega

/-- Packed and unpacked again, a number with a small exponent is zero or still has one. -/
theorem Bounded.compact (h : Bounded k x) (hk : -1074 ≤ k) (hk' : k ≤ 970) :
    Compact k (unpack Format.binary64 (pack Format.binary64 x)) := by
  cases h with
  | zero s => exact compact_unpack_components (by decide) (by simp; omega) hk s 0
  | finite s hm he =>
    obtain ⟨e', m', hpack, hlt, hle⟩ := pack_finite s hm he hk hk'
    rw [hpack]
    exact compact_unpack_components hlt hle hk s m'

/-- The product of two numbers of at most `53` bits with small exponents has a small one. -/
theorem Compact.mul {y : UnpackedFloat} {l : Int} (hx : Compact k x) (hy : Compact l y)
    (h : 0 ≤ k + l) : Bounded (k + l + (106 : Nat) + (106 : Nat)) (mul Format.binary64 x y) := by
  cases hx with
  | zero s => cases hy <;> exact .zero _
  | @finite s m e hm hlt he =>
    cases hy with
    | zero s' => exact .zero _
    | @finite s' m' e' hm' hlt' he' =>
      refine Bounded.roundWithAccuracy _ ?_ (Int.add_le_add he he') h
      calc m * m' < 2 ^ 53 * 2 ^ 53 := Nat.mul_lt_mul'' hlt hlt'
        _ = 2 ^ 106 := by decide

end Packing

/-! ## Integers -/

theorem isFinite_ofModel_pack {x : UnpackedFloat} {k : Int} (h : Bounded k x) (hk : -1074 ≤ k)
    (hk' : k ≤ 970) : (Float.ofModel (.pack x)).isFinite = true :=
  (h.compact hk hk').isFinite

theorem isFinite_neg {x : Float} (h : x.isFinite = true) : (-x).isFinite = true := by
  obtain ⟨s, e, m, he, hx, -⟩ := components_of_isFinite h
  have hunpack : (-x).toModel.unpack = unpack Format.binary64 (components (-s) e m) := by
    change unpack Format.binary64 (pack Format.binary64
      (unpack Format.binary64 x.toBits.toBitVec).neg) = _
    rw [hx, neg_unpack he, pack_unpack_components he]
  change (-x).toModel.unpack.isFinite = true
  rw [hunpack]
  exact (compact_unpack_components (k := 972) (toNat_exponent_lt he)
    (by have := toNat_exponent_lt he; omega) (by decide) _ _).isFinite

/-- An integer taken as a decimal without a fraction is rounded from its full length. -/
theorem ofScientific_zero {n : Nat} (hn : n ≠ 0) :
    UnpackedFloat.ofScientific Format.binary64 n 0 =
      UnpackedFloat.roundWithAccuracy Format.binary64 .positive (n <<< 53 * 1) (-53 + 0)
        .exact := by
  have hpow : (0 : Int) ≤ 2 ^ Format.binary64.exponentBits := by positivity
  rw [UnpackedFloat.ofScientific, dif_neg hn, if_neg (by decide), if_neg (by omega),
    if_pos (by decide)]
  rfl

theorem Bounded.ofScientific {n : Nat} (hpos : n ≠ 0) (hn : n ≤ 2 ^ 64) :
    Bounded (0 + (118 : Nat) + (118 : Nat))
      (UnpackedFloat.ofScientific Format.binary64 n 0) := by
  have hbits : n <<< 53 * 1 < 2 ^ 118 := by
    rw [Nat.shiftLeft_eq]
    omega
  rw [ofScientific_zero hpos]
  exact Bounded.roundWithAccuracy .positive hbits (by decide) (by decide)

theorem isFinite_ofNat {n : Nat} (hn : n ≤ 2 ^ 64) : (Float.ofNat n).isFinite = true := by
  change (Float.ofScientific n false 0).isFinite = true
  rw [Float.ofScientific]
  split
  · next hsmall =>
    -- a number of at most `53` bits is multiplied by one
    have hlt : n.toUInt64.toNat < 2 ^ 53 := by
      have := hsmall.1
      simp
      omega
    have hnumber : Compact 210 n.toUInt64.toFloat.toModel.unpack :=
      (Bounded.ofNat hlt).compact (by decide) (by decide)
    have hone : Compact (-52) (Float.ofBits 0x3FF0000000000000).toModel.unpack :=
      .finite .positive (m := 2 ^ 52) (e := -52) (by decide) (by decide) (by decide)
    exact isFinite_ofModel_pack (hnumber.mul hone (by decide)) (by decide) (by decide)
  · next hlarge =>
    have hpos : n ≠ 0 := by
      rintro rfl
      exact hlarge (by decide)
    exact isFinite_ofModel_pack (Bounded.ofScientific hpos hn) (by decide) (by decide)

/-- The number nearest to an integer of sixty-four bits is finite. -/
theorem isFinite_ofInt {n : Int} (hlow : -2 ^ 64 ≤ n) (hhigh : n ≤ 2 ^ 64) :
    (Float.ofInt n).isFinite = true := by
  cases n with
  | ofNat n => exact isFinite_ofNat (Int.ofNat_le.1 hhigh)
  | negSucc n => exact isFinite_neg (isFinite_ofNat (by omega))

end DawScript.Decimal
