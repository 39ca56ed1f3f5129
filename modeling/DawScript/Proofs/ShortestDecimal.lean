import DawScript.Decimal.Text
import DawScript.Proofs.FloatBits
import DawScript.Proofs.Rounding
import Mathlib.Data.Nat.Cast.Order.Field

/-!
# Decimals that are read back

The search for the shortest decimal ends in the interval of the number (`Binary.search_spec`), at
the latest on the seventeenth grid, which is finer than the interval is wide. A number that is shown
without an exponent is therefore read back from its text (`shown_plain`).
-/

set_option autoImplicit false

namespace DawScript.Decimal

/-! ## Digits -/

theorem natOfDigits_eq (digits : List Char) : natOfDigits digits = Nat.ofDigitChars 10 digits 0 :=
  Nat.ofDigitChars_eq_foldl.symm

/-- Digits put before others count as many times more as the others have places. -/
theorem natOfDigits_append (ds es : List Char) :
    natOfDigits (ds ++ es) = 10 ^ es.length * natOfDigits ds + natOfDigits es := by
  simp only [natOfDigits_eq, Nat.ofDigitChars_append]
  exact Nat.ofDigitChars_eq_ofDigitChars_zero

theorem natOfDigits_zeros (n : Nat) : natOfDigits (List.replicate n '0') = 0 := by
  simp [natOfDigits_eq]

theorem natOfDigits_toDigits (n : Nat) : natOfDigits (Nat.toDigits 10 n) = n := by
  rw [natOfDigits_eq, Nat.ofDigitChars_ten_toDigits]

/-- A number is read back from its digits. -/
theorem natural?_toString (n : Nat) : natural? (toString n).toList = some n := by
  have hdigits : (Nat.toDigits 10 n).all Char.isDigit = true :=
    List.all_eq_true.2 fun _ => Nat.isDigit_of_mem_toDigits (by decide) (by decide)
  have hne : (Nat.toDigits 10 n).isEmpty = false := by simp [Nat.toDigits_ne_nil]
  rw [Nat.toString_eq_repr, Nat.toList_repr, natural?, hne, hdigits, natOfDigits_toDigits]
  rfl

theorem lt_pow_length_toDigits (n : Nat) : n < 10 ^ (Nat.toDigits 10 n).length :=
  (Nat.length_toDigits_le_iff (by decide) Nat.length_toDigits_pos).1 (Nat.le_refl _)

theorem pow_length_toDigits_le {n : Nat} (h : 0 < n) :
    10 ^ ((Nat.toDigits 10 n).length - 1) ≤ n := by
  by_cases hone : (Nat.toDigits 10 n).length - 1 = 0
  · -- one digit
    rw [hone]
    exact h
  · by_contra hless
    have hle := (Nat.length_toDigits_le_iff (by decide) (Nat.pos_of_ne_zero hone)).2
      (Nat.lt_of_not_le hless)
    omega

/-- Digits are those without the zeros at their end, and these zeros. -/
theorem exists_zeros (ds : List Char) :
    ∃ z, ds = (ds.reverse.dropWhile (· == '0')).reverse ++ List.replicate z '0' := by
  refine ⟨(ds.reverse.takeWhile (· == '0')).length, ?_⟩
  have hall : ds.reverse.takeWhile (· == '0') =
      List.replicate (ds.reverse.takeWhile (· == '0')).length '0' := by
    refine List.eq_replicate_iff.2 ⟨rfl, ?_⟩
    intro c hc
    simpa using List.all_eq_true.1 List.all_takeWhile c hc
  have hsplit := List.takeWhile_append_dropWhile (p := (· == '0')) (l := ds.reverse)
  rw [← List.reverse_inj, List.reverse_append, List.reverse_reverse, List.reverse_replicate, ← hall]
  exact hsplit.symm

/-! ## Grids -/

namespace Binary

variable (b : Binary)

theorem low_lt_high : b.low < b.high := by
  have hunit : (0 : ℚ) < 2 ^ b.exponent := by positivity
  rw [low, high, mul_lt_mul_iff_left₀ hunit]
  split <;> linarith

/-- What a number and the ends of its interval are on a grid. -/
theorem scale_spec (hpos : 0 < b.mantissa) (k : ℤ) : ∃ w : ℚ, 0 < w ∧
    ((b.scale k).unit : ℚ) = 10 ^ k * w ∧
    ((b.scale k).value : ℚ) = b.mantissa * 2 ^ b.exponent * w ∧
    ((b.scale k).low : ℚ) = b.low * w ∧ ((b.scale k).high : ℚ) = b.high * w := by
  have h10 : (10 : ℚ) ^ k = 10 ^ k.toNat / 10 ^ (-k).toNat := zpow_eq_toNat (by norm_num) k
  have h2 : (2 : ℚ) ^ b.exponent =
      4 * (2 ^ (b.exponent - 2).toNat / 2 ^ (2 - b.exponent).toNat) := by
    have hneg : (2 - b.exponent).toNat = (-(b.exponent - 2)).toNat := by rw [neg_sub]
    rw [hneg, ← zpow_eq_toNat two_ne_zero, zpow_sub₀ two_ne_zero]
    norm_num
    ring
  -- whole numbers need the powers that are in the denominators, and two bits for the quarter
  refine ⟨2 ^ (2 - b.exponent).toNat * 10 ^ (-k).toNat, by positivity, ?_, ?_, ?_, ?_⟩
  · simp only [scale, Nat.pow_eq]
    push_cast
    rw [h10]
    field_simp
  · simp only [scale, Nat.pow_eq]
    push_cast
    rw [h2]
    field_simp
  · simp only [scale, Nat.pow_eq]
    rw [Nat.cast_mul, Nat.cast_sub (by split <;> omega)]
    push_cast
    rw [low, h2]
    split
    · field_simp
    · field_simp
      ring
  · simp only [scale, Nat.pow_eq]
    push_cast
    rw [high, h2]
    field_simp
    ring

variable {b}

/-- A grid point in the interval rounds to the number. -/
theorem rounds_of_holds (hpos : 0 < b.mantissa) {k : ℤ} {d : Nat}
    (h : (b.scale k).holds d = true) : b.Rounds (d * 10 ^ k) := by
  obtain ⟨w, hw, hunit, -, hlow, hhigh⟩ := b.scale_spec hpos k
  have hpoint : ((d * (b.scale k).unit : Nat) : ℚ) = d * 10 ^ k * w := by
    rw [Nat.cast_mul, hunit]
    ring
  have hclosed : (b.scale k).closed = true ↔ b.mantissa % 2 = 0 := by simp [scale]
  simp only [Scaled.holds, Bool.or_eq_true, Bool.and_eq_true, decide_eq_true_iff, hclosed] at h
  -- on the grid, comparisons are the same up to the factor
  have hlt : (b.scale k).low < d * (b.scale k).unit ↔ b.low < d * 10 ^ k := by
    rw [← Nat.cast_lt (α := ℚ), hpoint, hlow, mul_lt_mul_iff_left₀ hw]
  have hgt : d * (b.scale k).unit < (b.scale k).high ↔ d * 10 ^ k < b.high := by
    rw [← Nat.cast_lt (α := ℚ), hpoint, hhigh, mul_lt_mul_iff_left₀ hw]
  have hfirst : d * (b.scale k).unit = (b.scale k).low ↔ d * 10 ^ k = b.low := by
    rw [← Nat.cast_inj (R := ℚ), hpoint, hlow, mul_left_inj' hw.ne']
  have hlast : d * (b.scale k).unit = (b.scale k).high ↔ d * 10 ^ k = b.high := by
    rw [← Nat.cast_inj (R := ℚ), hpoint, hhigh, mul_left_inj' hw.ne']
  rw [hlt, hgt, hfirst, hlast] at h
  have hends := b.low_lt_high
  rcases h with ⟨hlow, hhigh⟩ | ⟨heven, hend | hend⟩
  · refine ⟨hlow.le, hhigh.le, ?_⟩
    rintro (hend | hend)
    · exact absurd hend hlow.ne'
    · exact absurd hend hhigh.ne
  · exact ⟨hend.ge, hend.trans_le hends.le, fun _ => heven⟩
  · exact ⟨hends.le.trans hend.ge, hend.le, fun _ => heven⟩

end Binary

namespace Scaled

variable {s : Scaled}

theorem holds_of_nearest? {tie : Tie} {d : Nat} (h : s.nearest? tie = some d) :
    s.holds d = true := by
  simp only [nearest?] at h
  split at h
  · next hbelow habove =>
    split at h
    · cases h
      exact hbelow
    · split at h
      · cases h
        exact habove
      · cases tie with
        | up =>
          cases h
          exact habove
        | even =>
          cases h
          split
          · exact hbelow
          · exact habove
  · next hbelow _ =>
    cases h
    exact hbelow
  · next _ habove =>
    cases h
    exact habove
  · cases h

/-- An interval wider than the grid holds one of the grid points on both sides of the number. -/
theorem nearest?_isSome {tie : Tie} (hunit : 0 < s.unit) (hlow : s.low < s.value)
    (hhigh : s.value < s.high) (hwide : s.low + s.unit < s.high) :
    ∃ d, s.nearest? tie = some d := by
  cases hn : s.nearest? tie with
  | some d => exact ⟨d, rfl⟩
  | none =>
    have hdiv := Nat.div_add_mod' s.value s.unit
    have hmod := Nat.mod_lt s.value hunit
    simp only [nearest?] at hn
    split at hn
    · split at hn
      · cases hn
      · split at hn
        · cases hn
        · cases tie <;> cases hn
    · cases hn
    · cases hn
    · next hbelow habove =>
      -- both neighbours would lie outside of an interval that is wider than their distance
      simp only [holds, Bool.or_eq_false_iff, Bool.and_eq_false_iff, decide_eq_false_iff_not,
        Nat.add_mul, Nat.one_mul] at hbelow habove
      omega

end Scaled

namespace Binary

variable {b : Binary}

/-- The search ends in the interval if one of the grids has a point there. -/
theorem search_holds {tie : Tie} {grids j : Nat} {k : ℤ} (hj : j < grids)
    (h : ∃ d, (b.scale (k - j)).nearest? tie = some d) :
    (b.scale (b.search tie grids k).2).holds (b.search tie grids k).1 = true := by
  induction grids generalizing j k with
  | zero => exact absurd hj (Nat.not_lt_zero j)
  | succ grids ih =>
    rw [search]
    split
    · next d hd => exact Scaled.holds_of_nearest? hd
    · next hnone =>
      cases j with
      | zero =>
        obtain ⟨d, hd⟩ := h
        rw [Nat.cast_zero, Int.sub_zero, hnone] at hd
        cases hd
      | succ j =>
        apply ih (Nat.lt_of_succ_lt_succ hj)
        have hk : k - 1 - (j : ℤ) = k - (j + 1 : Nat) := by omega
        rw [hk]
        exact h

/-- The power of ten at the leading place is not above the number. -/
theorem pow_leadingPlace_le (hpos : 0 < b.mantissa) :
    (10 : ℚ) ^ b.leadingPlace ≤ b.mantissa * 2 ^ b.exponent := by
  obtain ⟨w, hw, hunit, hvalue, -, -⟩ := b.scale_spec hpos 0
  rw [zpow_zero, one_mul] at hunit
  have hmantissa : (0 : ℚ) < b.mantissa := by exact_mod_cast hpos
  have hv : (0 : ℚ) < (b.scale 0).value := by
    rw [hvalue]
    positivity
  have hu : (0 : ℚ) < (b.scale 0).unit := by
    rw [hunit]
    exact hw
  have hquot : (b.mantissa * 2 ^ b.exponent : ℚ) = (b.scale 0).value / (b.scale 0).unit := by
    rw [hvalue, hunit]
    field_simp
  rw [hquot]
  generalize hs : b.scale 0 = s at *
  rw [Nat.cast_pos] at hv hu
  simp only [leadingPlace, hs]
  split
  · next hle =>
    -- at least one: the place is that of the first digit of the whole part
    have hquotient : 0 < s.value / s.unit := Nat.div_pos hle hu
    have hlength := Nat.length_toDigits_pos (b := 10) (n := s.value / s.unit)
    rw [← Nat.cast_one, ← Nat.cast_sub hlength, zpow_natCast]
    calc (10 : ℚ) ^ ((Nat.toDigits 10 (s.value / s.unit)).length - 1)
        ≤ ((s.value / s.unit : Nat) : ℚ) := by exact_mod_cast pow_length_toDigits_le hquotient
      _ ≤ s.value / s.unit := Nat.cast_div_le
  · -- below one: the place is found from the inverse
    rw [zpow_neg, zpow_natCast, inv_le_comm₀ (by positivity) (by positivity), inv_div]
    have hless := lt_pow_length_toDigits (s.unit / s.value)
    rw [div_le_iff₀ (by exact_mod_cast hv)]
    have hmul : s.unit ≤ 10 ^ (Nat.toDigits 10 (s.unit / s.value)).length * s.value :=
      ((Nat.div_lt_iff_lt_mul hv).1 hless).le
    exact_mod_cast hmul

/-- A number is less than `10 ^ 16` times as large as its interval is wide. -/
theorem value_lt_width {bits : Nat} (hpos : 0 < bits) (hfinite : bits < infinityBits) :
    ((ofBits bits).mantissa * 2 ^ (ofBits bits).exponent : ℚ) <
      10 ^ 16 * ((ofBits bits).high - (ofBits bits).low) := by
  obtain ⟨place, mantissa, -, -, hmax, -, hb⟩ := ofBits_eq hpos hfinite
  -- only below a power of two is the interval narrower than a last place
  have hhalved : (ofBits bits).halved = true → (ofBits bits).mantissa = leadingOne := by
    rw [hb]
    exact fun h => (of_decide_eq_true h).1
  have hmantissa : ((ofBits bits).mantissa : ℚ) < 2 * leadingOne := by
    rw [hb]
    exact_mod_cast hmax
  generalize ofBits bits = b at *
  have hunit : (0 : ℚ) < 2 ^ b.exponent := by positivity
  have hone : (leadingOne : ℚ) = 4503599627370496 := by norm_num [leadingOne]
  rw [low, high, ← sub_mul, ← mul_assoc, mul_lt_mul_iff_left₀ hunit]
  split
  · next h =>
    rw [hhalved h, hone]
    norm_num
  · linarith

/-- The search ends with a grid point in the interval. -/
theorem search_spec {bits : Nat} (hpos : 0 < bits) (hfinite : bits < infinityBits) (tie : Tie) :
    ∃ d k, (ofBits bits).search tie 17 (ofBits bits).leadingPlace = (d, k) ∧
      (ofBits bits).Rounds (d * 10 ^ k) := by
  have hmantissa : 0 < (ofBits bits).mantissa := by
    obtain ⟨place, mantissa, -, hm, -, -, hb⟩ := ofBits_eq hpos hfinite
    rw [hb]
    exact hm
  have hwide := value_lt_width hpos hfinite
  generalize ofBits bits = b at *
  refine ⟨(b.search tie 17 b.leadingPlace).1, (b.search tie 17 b.leadingPlace).2, Prod.mk.eta.symm,
    rounds_of_holds hmantissa (search_holds (j := 16) (by decide) ?_)⟩
  -- the seventeenth grid is finer than the interval is wide
  obtain ⟨w, hw, hunit, hvalue, hlow, hhigh⟩ := b.scale_spec hmantissa (b.leadingPlace - (16 : Nat))
  have hten : (10 : ℚ) ^ (b.leadingPlace - (16 : Nat)) * 10 ^ 16 = 10 ^ b.leadingPlace := by
    rw [← zpow_natCast, ← zpow_add₀ (by norm_num), Int.sub_add_cancel]
  have hgrid : (10 : ℚ) ^ (b.leadingPlace - (16 : Nat)) < b.high - b.low := by
    have hle := pow_leadingPlace_le hmantissa
    linarith
  have hpos : (0 : ℚ) < 2 ^ b.exponent := by positivity
  refine Scaled.nearest?_isSome ?_ ?_ ?_ ?_
  · rw [← Nat.cast_pos (α := ℚ), hunit]
    positivity
  · rw [← Nat.cast_lt (α := ℚ), hlow, hvalue, mul_lt_mul_iff_left₀ hw, low,
      mul_lt_mul_iff_left₀ hpos]
    split <;> linarith
  · rw [← Nat.cast_lt (α := ℚ), hhigh, hvalue, mul_lt_mul_iff_left₀ hw, high,
      mul_lt_mul_iff_left₀ hpos]
    linarith
  · rw [← Nat.cast_lt (α := ℚ), Nat.cast_add, hlow, hunit, hhigh, ← add_mul,
      mul_lt_mul_iff_left₀ hw]
    linarith

theorem low_pos {bits : Nat} (hpos : 0 < bits) (hfinite : bits < infinityBits) :
    0 < (ofBits bits).low := by
  obtain ⟨place, mantissa, -, hm, -, -, hb⟩ := ofBits_eq hpos hfinite
  have hmantissa : (1 : ℚ) ≤ mantissa := by exact_mod_cast hm
  rw [hb, low]
  refine mul_pos ?_ (by positivity)
  split <;> linarith

/-- The shortest decimal is in the interval of its number. -/
theorem shortest_spec {bits : Nat} (hpos : 0 < bits) (hfinite : bits < infinityBits) (tie : Tie) :
    ∃ digits point, (ofBits bits).shortest tie = ⟨digits, point⟩ ∧ digits ≠ [] ∧
      (∀ c ∈ digits, c.isDigit = true) ∧
      (10 : ℚ) ^ (point - 1) ≤ natOfDigits digits * 10 ^ (point - digits.length) ∧
      (ofBits bits).Rounds (natOfDigits digits * 10 ^ (point - digits.length)) := by
  obtain ⟨d, k, hsearch, hrounds⟩ := search_spec hpos hfinite tie
  have hd : 0 < d := by
    have hlow := (low_pos hpos hfinite).trans_le hrounds.low_le
    exact Nat.pos_of_ne_zero fun h => by simp [h] at hlow
  -- the zeros at the end are left out, and the exponent makes up for them
  obtain ⟨z, hz⟩ := exists_zeros (Nat.toDigits 10 d)
  refine ⟨_, _, by rw [shortest, hsearch], ?_, ?_, ?_⟩
  all_goals
    generalize ((Nat.toDigits 10 d).reverse.dropWhile (· == '0')).reverse = digits at hz ⊢
  · rintro rfl
    have hzero := natOfDigits_toDigits d
    rw [hz, List.nil_append, natOfDigits_zeros] at hzero
    exact hd.ne hzero
  · intro c hc
    apply Nat.isDigit_of_mem_toDigits (b := 10) (n := d) (by decide) (by decide)
    rw [hz]
    exact List.mem_append_left _ hc
  · have hvalue : (natOfDigits digits : ℚ) *
        10 ^ (((Nat.toDigits 10 d).length : ℤ) + k - digits.length) = d * 10 ^ k := by
      have hdigits : (d : ℚ) = natOfDigits digits * 10 ^ z := by
        have hnat := natOfDigits_toDigits d
        rw [hz, natOfDigits_append, natOfDigits_zeros, List.length_replicate] at hnat
        rw [← hnat]
        push_cast
        ring
      have hlength : ((Nat.toDigits 10 d).length : ℤ) + k - digits.length = z + k := by
        rw [hz, List.length_append, List.length_replicate]
        push_cast
        ring
      rw [hlength, zpow_add₀ (by norm_num), zpow_natCast, hdigits, mul_assoc]
    rw [hvalue]
    refine ⟨?_, hrounds⟩
    have hlength := Nat.length_toDigits_pos (b := 10) (n := d)
    have hexponent : ((Nat.toDigits 10 d).length : ℤ) + k - 1 =
        ((Nat.toDigits 10 d).length - 1 : Nat) + k := by omega
    rw [hexponent, zpow_add₀ (by norm_num), zpow_natCast]
    gcongr
    exact_mod_cast pow_length_toDigits_le hd

end Binary

/-! ## The plain layout -/

/-- A plain text has digits on both sides of its point, and they stand for the number that is laid
out. -/
theorem plainText_spec {digits : List Char} (hdigits : ∀ c ∈ digits, c.isDigit = true)
    (hne : digits ≠ []) (point : ℤ) : ∃ whole fraction,
      plainText digits point = whole ++ '.' :: fraction ∧ whole ≠ [] ∧ fraction ≠ [] ∧
      (∀ c ∈ whole ++ fraction, c.isDigit = true) ∧
      (natOfDigits (whole ++ fraction) * 10 ^ (-(fraction.length : ℤ)) : ℚ) =
        natOfDigits digits * 10 ^ (point - digits.length) := by
  have hzero (n : Nat) : ∀ c ∈ List.replicate n '0', c.isDigit = true := by
    intro c hc
    rw [List.eq_of_mem_replicate hc]
    rfl
  -- the point stands before the digits, after them, or among them
  unfold plainText
  split
  · next hpoint =>
    -- zeros between the point and the digits
    refine ⟨['0'], List.replicate (-point).toNat '0' ++ digits, rfl, nofun, by simp [hne], ?_, ?_⟩
    · intro c hc
      have hmem : c ∈ List.replicate (-point + 1).toNat '0' ∨ c ∈ digits := by
        rcases List.mem_append.1 hc with hc | hc
        · exact Or.inl (List.mem_replicate.2 ⟨by omega, List.mem_singleton.1 hc⟩)
        · apply (List.mem_append.1 hc).imp_left
          intro hc
          exact List.mem_replicate.2 ⟨by omega, List.eq_of_mem_replicate hc⟩
      exact hmem.elim (hzero _ c) (hdigits c)
    · have hnat : natOfDigits (['0'] ++ (List.replicate (-point).toNat '0' ++ digits)) =
          natOfDigits digits := by
        rw [natOfDigits_append, natOfDigits_append, natOfDigits_zeros]
        simp [natOfDigits, digitValue]
      have hlength : -((List.replicate (-point).toNat '0' ++ digits).length : ℤ) =
          point - digits.length := by
        rw [List.length_append, List.length_replicate]
        omega
      rw [hnat, hlength]
  · split
    · next hlong =>
      -- zeros between the digits and the point
      refine ⟨digits ++ List.replicate (point.toNat - digits.length) '0', ['0'], by simp,
        by simp [hne], nofun, ?_, ?_⟩
      · intro c hc
        rcases List.mem_append.1 hc with hc | hc
        · exact (List.mem_append.1 hc).elim (hdigits c) (hzero _ c)
        · exact hzero 1 c hc
      · have hexponent : point - digits.length = ((point.toNat - digits.length : Nat) : ℤ) := by
          omega
        have hlast : natOfDigits ['0'] = 0 := rfl
        rw [natOfDigits_append, natOfDigits_append, natOfDigits_zeros, hexponent, zpow_natCast,
          List.length_replicate, hlast]
        push_cast
        simp
        ring
    · next hpoint hshort =>
      refine ⟨digits.take point.toNat, digits.drop point.toNat, rfl, ?_, ?_, ?_, ?_⟩
      · simp [hne]
        omega
      · simp
        omega
      · rw [List.take_append_drop]
        exact hdigits
      · rw [List.take_append_drop, List.length_drop]
        congr 2
        omega

/-- A decimal that is not too small is read as the number nearest to it. -/
theorem nearest_eq {n f : Nat} (h : (10 : ℚ) ^ (-4 : ℤ) ≤ n * 10 ^ (-(f : ℤ))) :
    nearest n (-f) = .ofBits (nearestBits n (10 ^ f)).toUInt64 := by
  have hn : n ≠ 0 := by
    rintro rfl
    rw [Nat.cast_zero, zero_mul] at h
    exact absurd h (not_le.2 (by positivity))
  -- a number with fewer binary digits than that would be less than a ten-thousandth
  have hlog : ¬ -(f : ℤ) + n.log2 + 1 < -400 := by
    intro hless
    have hf : (10 : ℚ) ^ (f - 4) ≤ n := by
      have hmul := mul_le_mul_of_nonneg_right h (by positivity : (0 : ℚ) ≤ 10 ^ (f : ℤ))
      rw [mul_assoc, ← zpow_add₀ (by norm_num), ← zpow_add₀ (by norm_num), neg_add_cancel,
        zpow_zero, mul_one] at hmul
      have hexponent : (-4 + f : ℤ) = (f - 4 : Nat) := by omega
      rwa [hexponent, zpow_natCast] at hmul
    have hge : 10 ^ (f - 4) ≤ n := by exact_mod_cast hf
    have hlt : n < 10 ^ (f - 4) :=
      calc n < 2 ^ (n.log2 + 1) := Nat.lt_log2_self
        _ ≤ 2 ^ (f - 4) := Nat.pow_le_pow_right (by decide) (by omega)
        _ ≤ 10 ^ (f - 4) := Nat.pow_le_pow_left (by decide) _
    omega
  have hsmall : ¬ (400 : ℤ) ≤ -f := by omega
  simp only [nearest, hn, hlog, hsmall, decide_false, Bool.or_false, Bool.false_eq_true, if_false]
  simp

theorem mem_exponentText (plus : Bool) (digits : List Char) (point : ℤ) :
    'e' ∈ exponentText plus digits point := by
  unfold exponentText
  rcases digits with _ | ⟨d, _ | ⟨d', ds⟩⟩
  · exact List.mem_cons_self
  · exact List.mem_cons_of_mem _ List.mem_cons_self
  · exact List.mem_append_right _ List.mem_cons_self

theorem magnitude_eq (layout : Layout) {b : Binary} {digits : List Char} {point : ℤ}
    (h : b.shortest layout.tie = ⟨digits, point⟩) : layout.magnitude b =
      if layout.leastPoint ≤ point && point ≤ layout.mostPoint then plainText digits point
      else exponentText layout.plusExponent digits point := by
  rw [Layout.magnitude, h]

/-- A magnitude that is shown without an exponent is shown as digits around a point, which are read
as the number with its bits. -/
theorem magnitude_plain {bits : Nat} (hpos : 0 < bits) (hfinite : bits < infinityBits)
    (hplain : 'e' ∉ Layout.shown.magnitude (.ofBits bits)) : ∃ whole fraction,
      Layout.shown.magnitude (.ofBits bits) = whole ++ '.' :: fraction ∧ whole ≠ [] ∧
      fraction ≠ [] ∧ (∀ c ∈ whole ++ fraction, c.isDigit = true) ∧
      nearest (natOfDigits (whole ++ fraction)) (-fraction.length) = .ofBits bits.toUInt64 := by
  obtain ⟨digits, point, hshortest, hne, hdigits, hge, hrounds⟩ :=
    Binary.shortest_spec hpos hfinite .up
  rw [magnitude_eq Layout.shown hshortest] at hplain ⊢
  split at hplain
  · next hpoint =>
    rw [if_pos hpoint]
    obtain ⟨whole, fraction, htext, hwhole, hfraction, hall, hvalue⟩ :=
      plainText_spec hdigits hne point
    refine ⟨whole, fraction, htext, hwhole, hfraction, hall, ?_⟩
    -- the digits around the point are a quotient by a power of ten, which is rounded
    rw [← hvalue] at hge hrounds
    -- numbers less than a ten-thousandth have an exponent
    have hleast : (-3 : ℤ) ≤ point := of_decide_eq_true (Bool.and_eq_true_iff.1 hpoint).1
    have hsmall : (10 : ℚ) ^ (-4 : ℤ) ≤ 10 ^ (point - 1) :=
      zpow_le_zpow_right₀ (by norm_num) (by omega)
    rw [nearest_eq (hsmall.trans hge)]
    have hquotient (n f : Nat) : (n * 10 ^ (-(f : ℤ)) : ℚ) = n / (10 ^ f : Nat) := by
      rw [zpow_neg, zpow_natCast, div_eq_mul_inv, Nat.cast_pow, Nat.cast_ofNat]
    rw [hquotient] at hge hrounds
    have hnum : 0 < natOfDigits (whole ++ fraction) := by
      apply Nat.pos_of_ne_zero
      intro hzero
      rw [hzero, Nat.cast_zero, zero_div] at hge
      exact absurd hge (not_le.2 (by positivity))
    rw [nearestBits_of_rounds hnum (Nat.pow_pos (by decide)) hpos hfinite hrounds]
  · exact absurd (mem_exponentText _ _ _) hplain

/-- A finite number that is shown without an exponent is shown as its sign and digits around a
point, and the digits are read as the number without its sign. -/
theorem shown_plain {x : Float} (hfinite : x.isFinite = true) (hplain : 'e' ∉ (shown x).toList) :
    ∃ whole fraction, (shown x).toList =
        (if isNegative x then ['-'] else []) ++ (whole ++ '.' :: fraction) ∧
      whole ≠ [] ∧ fraction ≠ [] ∧ (∀ c ∈ whole ++ fraction, c.isDigit = true) ∧
      nearest (natOfDigits (whole ++ fraction)) (-fraction.length) = unsigned x := by
  have hshown : (shown x).toList = (if isNegative x then ['-'] else []) ++
      if x.toBits.toNat % signBit = 0 then ['0', '.', '0']
      else Layout.shown.magnitude (.ofBits (x.toBits.toNat % signBit)) := by
    rw [shown, isNaN_of_isFinite hfinite, isInf_of_isFinite hfinite]
    simp only [Bool.false_eq_true, if_false, Layout.finite, String.toList_ofList, isNegative,
      decide_eq_true_iff]
    split <;> rfl
  rw [hshown] at hplain ⊢
  have hbits := magnitude_lt hfinite
  rw [unsigned]
  generalize x.toBits.toNat % signBit = bits at *
  by_cases hzero : bits = 0
  · -- a zero is not searched for
    subst hzero
    exact ⟨['0'], ['0'], rfl, List.cons_ne_nil _ _, List.cons_ne_nil _ _,
      List.all_eq_true.1 rfl, rfl⟩
  · rw [if_neg hzero] at hplain ⊢
    obtain ⟨whole, fraction, htext, hspec⟩ := magnitude_plain (Nat.pos_of_ne_zero hzero) hbits
      fun hmem => hplain (List.mem_append_right _ hmem)
    exact ⟨whole, fraction, by rw [htext], hspec⟩

end DawScript.Decimal
