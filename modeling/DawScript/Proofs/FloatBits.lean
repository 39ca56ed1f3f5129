import DawScript.Decimal.Text
import Mathlib

/-!
# The bits of floating-point numbers

A floating-point number is put together again from its sign and the bits below it
(`signed_magnitude`). Unpacking and packing go through a sign, an exponent and a fraction, and all
bits but those of an exponent without zeros survive them.
-/

set_option autoImplicit false

namespace DawScript.Decimal

open Float.Model (Format UnpackedFloat)
open Float.Model.UnpackedFloat

/-! ## Sign, exponent and fraction -/

/-- The bits of a number with a sign, an exponent and a fraction. -/
abbrev components (s : Sign) (e : BitVec 11) (m : BitVec 52) :
    BitVec Format.binary64.numBits :=
  packComponents Format.binary64 s e m

theorem toNat_append {w v : Nat} (x : BitVec w) (y : BitVec v) :
    (x ++ y).toNat = 2 ^ v * x.toNat + y.toNat := by
  rw [BitVec.toNat_append, ← Nat.shiftLeft_add_eq_or_of_lt y.isLt, Nat.shiftLeft_eq, Nat.mul_comm]

theorem toNat_components (s : Sign) (e : BitVec 11) (m : BitVec 52) :
    (components s e m).toNat =
      signBit * s.toBitVec.toNat + leadingOne * e.toNat + m.toNat := by
  have hsplit : (s.toBitVec ++ e ++ m).toNat =
      2 ^ 52 * (2 ^ 11 * s.toBitVec.toNat + e.toNat) + m.toNat := by
    rw [toNat_append, toNat_append]
  apply hsplit.trans
  rw [signBit, leadingOne]
  omega

theorem exists_components (b : BitVec Format.binary64.numBits) :
    ∃ s e m, b = components s e m :=
  ⟨.ofBitVec (unpackSign b), unpackExponent b, unpackMantissa b,
    (packComponents_unpackSign_unpackExponent_unpackMantissa b).symm⟩

/-! ## Unpacking and packing -/

section Finite

variable {e : BitVec 11}

theorem toNat_exponent_lt (he : e ≠ -1#11) : e.toNat < 2047 := by
  have hlt := e.isLt
  have hne : e.toNat ≠ 2047 := fun h => he (BitVec.eq_of_toNat_eq (by simpa using h))
  omega

/-- The bits of a finite number survive unpacking and packing. -/
theorem pack_unpack_components (he : e ≠ -1#11) (s : Sign) (m : BitVec 52) :
    pack Format.binary64 (unpack Format.binary64 (components s e m)) = components s e m := by
  have hnumber : isNaNBits (components s e m) = false := by
    rw [isNaNBits, unpackExponent_packComponents, decide_eq_false_iff_not]
    exact fun h => he h.1
  rw [pack_unpack, hnumber]
  rfl

/-- Negation changes the sign and nothing else. -/
theorem neg_unpack (he : e ≠ -1#11) (s : Sign) (m : BitVec 52) :
    (unpack Format.binary64 (components s e m)).neg =
      unpack Format.binary64 (components (-s) e m) := by
  simp only [unpack, components, unpackSign_packComponents, unpackMantissa_packComponents,
    unpackExponent_packComponents, Sign.ofBitVec_toBitVec]
  rw [if_neg he, if_neg he]
  split
  · split <;> rfl
  · rfl

theorem exponent_of_isFinite {s : Sign} {m : BitVec 52}
    (h : (unpack Format.binary64 (components s e m)).isFinite = true) : e ≠ -1#11 := by
  intro he
  simp only [unpack, unpackMantissa_packComponents, unpackExponent_packComponents] at h
  rw [if_pos he] at h
  split at h <;> cases h

end Finite

/-! ## Finite numbers -/

/-- Whether a number has the sign of negative numbers. -/
def isNegative (x : Float) : Bool := signBit ≤ x.toBits.toNat

/-- A number without its sign. -/
def unsigned (x : Float) : Float := .ofBits (x.toBits.toNat % signBit).toUInt64

section Numbers

variable {x : Float}

theorem toBits_ofBits (b : UInt64) : (Float.ofBits b).toBits =
    .ofBitVec (pack Format.binary64 (unpack Format.binary64 b.toBitVec)) := rfl

theorem toBits_neg (x : Float) : (-x).toBits =
    .ofBitVec (pack Format.binary64
      (unpack Format.binary64 x.toBits.toBitVec).neg) := rfl

theorem isNaN_of_isFinite (h : x.isFinite = true) : x.isNaN = false := by
  change x.toModel.unpack.isFinite = true at h
  change x.toModel.unpack.isNaN = false
  cases hx : x.toModel.unpack with
  | notANumber =>
    rw [hx] at h
    cases h
  | _ => rfl

theorem isInf_of_isFinite (h : x.isFinite = true) : x.isInf = false := by
  change x.toModel.unpack.isFinite = true at h
  change x.toModel.unpack.isInf = false
  cases hx : x.toModel.unpack with
  | infinity s =>
    rw [hx] at h
    cases h
  | _ => rfl

/-- The bits of a finite number have an exponent with a zero. -/
theorem components_of_isFinite (h : x.isFinite = true) :
    ∃ s e m, e ≠ -1#11 ∧ x.toBits.toBitVec = components s e m ∧
      x.toBits.toNat = signBit * s.toBitVec.toNat + leadingOne * e.toNat + m.toNat ∧
      x.toBits.toNat % signBit = leadingOne * e.toNat + m.toNat := by
  obtain ⟨s, e, m, hx⟩ := exists_components x.toBits.toBitVec
  have hfinite : (unpack Format.binary64 (components s e m)).isFinite = true := by
    rw [← hx]
    exact h
  have hbits : x.toBits.toNat =
      signBit * s.toBitVec.toNat + leadingOne * e.toNat + m.toNat := by
    rw [← toNat_components, ← hx]
    rfl
  refine ⟨s, e, m, exponent_of_isFinite hfinite, hx, hbits, ?_⟩
  have he := e.isLt
  have hm : m.toNat < 2 ^ 52 := m.isLt
  rw [hbits, signBit, leadingOne]
  omega

/-- Without the sign, the bits of a finite number lie below those of infinity. -/
theorem magnitude_lt (h : x.isFinite = true) : x.toBits.toNat % signBit < infinityBits := by
  obtain ⟨s, e, m, he, -, -, hmagnitude⟩ := components_of_isFinite h
  have hexponent := toNat_exponent_lt he
  have hm : m.toNat < 2 ^ 52 := m.isLt
  rw [hmagnitude, leadingOne, infinityBits]
  omega

/-- A finite number is what its sign makes of it without the sign. -/
theorem signed_magnitude (h : x.isFinite = true) :
    (if isNegative x then -unsigned x else unsigned x) = x := by
  obtain ⟨s, e, m, he, hx, hbits, hmagnitude⟩ := components_of_isFinite h
  have hexponent := toNat_exponent_lt he
  have hm : m.toNat < 2 ^ 52 := m.isLt
  -- the sign is the first bit, so leaving it out leaves the positive number
  have hunsigned : (unsigned x).toBits.toBitVec = components .positive e m := by
    have hbitvec : (x.toBits.toNat % signBit).toUInt64.toBitVec = components .positive e m := by
      apply BitVec.eq_of_toNat_eq
      rw [toNat_components, hmagnitude]
      simp [Sign.toBitVec, leadingOne]
      omega
    rw [unsigned, toBits_ofBits, hbitvec]
    exact pack_unpack_components he .positive m
  apply Float.toBits_inj.1
  apply UInt64.toBitVec_inj.1
  rw [hx]
  cases s with
  | positive =>
    have hsign : isNegative x = false := by
      simp [isNegative, hbits, Sign.toBitVec, signBit, leadingOne]
      omega
    rw [hsign]
    exact hunsigned
  | negative =>
    have hsign : isNegative x = true := by
      simp [isNegative, hbits, Sign.toBitVec, signBit, leadingOne]
      omega
    rw [hsign, if_pos rfl, toBits_neg, hunsigned, neg_unpack he]
    exact pack_unpack_components he .negative m

end Numbers

end DawScript.Decimal
