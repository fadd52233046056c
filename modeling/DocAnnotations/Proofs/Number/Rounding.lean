import DocAnnotations.Proofs.Number.Magnitudes

/-! # Rounded numbers -/

namespace DocAnnotations.Binary64

variable {m n k num den : ℕ} {e : ℤ} {q r : ℚ} {x y : Binary64}

/-! ## Powers and fractions -/

theorem zpow_mul_toNat {b : ℚ} (hb : b ≠ 0) (e : ℤ) : b ^ e * b ^ (-e).toNat = b ^ e.toNat := by
  -- One of the two natural powers is 1.
  obtain ⟨i, rfl | rfl⟩ := e.eq_nat_or_neg
  · simp
  · simp [hb]

theorem scaled_quotient {b : ℚ} (hb : b ≠ 0) (num den : ℚ) (e : ℤ) :
    num * b ^ (-e).toNat / (den * b ^ e.toNat) * b ^ e = num / den := by
  have hpow : b ^ e ≠ 0 := zpow_ne_zero e hb
  rw [← zpow_mul_toNat hb e]
  field_simp

theorem scaled_magnitude (x : Binary64) : Scaled x.magnitude x.significand x.exponent := by
  unfold significand exponent
  have hpow : Nat.pow 2 52 = 2 ^ 52 := rfl
  rw [hpow]
  split_ifs with h
  · exact ⟨by omega, by omega, by omega, .inl rfl⟩
  · exact ⟨by omega, by omega, by omega, .inr (by omega)⟩

theorem significand_lt (x : Binary64) : x.significand < 2 ^ 53 := by
  unfold significand
  have hpow : Nat.pow 2 52 = 2 ^ 52 := rfl
  rw [hpow]
  split_ifs <;> omega

theorem denominator_pos (x : Binary64) : 0 < x.denominator := Nat.pow_pos (by decide)

theorem numerator_div_denominator (x : Binary64) :
    (x.numerator : ℚ) / x.denominator = value x.magnitude := by
  have hden : (x.denominator : ℚ) ≠ 0 := by exact_mod_cast x.denominator_pos.ne'
  rw [div_eq_iff hden, x.scaled_magnitude.value_eq, mul_assoc]
  have hpow := zpow_mul_toNat (two_ne_zero (α := ℚ)) x.exponent
  simp only [numerator, denominator, Nat.pow_eq]
  push_cast
  rw [hpow]

/-! ## Rounding to an integer -/

theorem roundDiv_bounds (num : ℕ) (hden : 0 < den) :
    2 * num ≤ (2 * roundDiv num den + 1) * den ∧ 2 * roundDiv num den * den ≤ 2 * num + den ∧
      (2 * num = (2 * roundDiv num den + 1) * den ∨ 2 * roundDiv num den * den = 2 * num + den →
        Even (roundDiv num den)) := by
  have hsplit : num / den * den + num % den = num := Nat.div_add_mod' num den
  have hrest : num % den < den := Nat.mod_lt num hden
  unfold roundDiv
  simp only
  generalize num / den = i at *
  generalize num % den = rest at *
  have hup : ∀ j, (2 * j + 1) * den = 2 * (j * den) + den := by intro j; ring
  have htwice : ∀ j, 2 * j * den = 2 * (j * den) := by intro j; ring
  have hsucc : (i + 1) * den = i * den + den := by ring
  rw [Nat.even_iff]
  split_ifs with hlow hhigh
  · rw [hup, htwice]
    exact ⟨by omega, by omega, by omega⟩
  · rw [hup, htwice, hsucc]
    exact ⟨by omega, by omega, by omega⟩
  · -- A tie: the even neighbour is the lower one or the one above it.
    rcases Nat.mod_two_eq_zero_or_one i with hi | hi
    · rw [hi, hup, htwice, Nat.add_zero]
      exact ⟨by omega, by omega, by omega⟩
    · rw [hi, hup, htwice, hsucc]
      exact ⟨by omega, by omega, by omega⟩

/-! ## The exponent of a quotient -/

theorem lt_zpow_iff (num : ℕ) (hden : 0 < den) (c : ℕ) (e : ℤ) :
    num * 2 ^ (-e).toNat < c * (den * 2 ^ e.toNat) ↔ (num / den : ℚ) < c * 2 ^ e := by
  have hden' : (0 : ℚ) < den := by exact_mod_cast hden
  have hpow : (0 : ℚ) < 2 ^ (-e).toNat := by positivity
  have hsplit := zpow_mul_toNat (two_ne_zero (α := ℚ)) e
  rw [div_lt_iff₀ hden', ← mul_lt_mul_iff_of_pos_right hpow, ← Nat.cast_lt (α := ℚ)]
  push_cast
  rw [← hsplit]
  constructor <;> intro h <;> linarith

theorem div_bounds (hnum : 0 < num) (hden : 0 < den) :
    2 ^ 52 * 2 ^ ((num.log2 : ℤ) - den.log2 - 52 - 1) ≤ (num / den : ℚ) ∧
      (num / den : ℚ) < 2 ^ 53 * 2 ^ ((num.log2 : ℤ) - den.log2 - 52) := by
  have hden' : (0 : ℚ) < den := by exact_mod_cast hden
  have hnum₁ : (2 : ℚ) ^ (num.log2 : ℤ) ≤ num := by exact_mod_cast Nat.log2_self_le hnum.ne'
  have hnum₂ : (num : ℚ) < 2 ^ (num.log2 : ℤ) * 2 := by exact_mod_cast Nat.lt_log2_self (n := num)
  have hden₁ : (2 : ℚ) ^ (den.log2 : ℤ) ≤ den := by exact_mod_cast Nat.log2_self_le hden.ne'
  have hden₂ : (den : ℚ) < 2 ^ (den.log2 : ℤ) * 2 := by exact_mod_cast Nat.lt_log2_self (n := den)
  generalize (num.log2 : ℤ) = a at *
  generalize (den.log2 : ℤ) = b at *
  -- The logarithms of both sides leave a guess that is one too great at most.
  have hguess : (2 : ℚ) ^ 52 * 2 ^ (a - b - 52 - 1) * (2 ^ b * 2) = 2 ^ a := by
    rw [← zpow_natCast, ← zpow_add_one₀ two_ne_zero, ← zpow_add₀ two_ne_zero,
      ← zpow_add₀ two_ne_zero]
    congr 1
    push_cast
    ring
  have hguess' : (2 : ℚ) ^ 53 * 2 ^ (a - b - 52) * 2 ^ b = 2 ^ a * 2 := by
    rw [← zpow_natCast, ← zpow_add_one₀ two_ne_zero, ← zpow_add₀ two_ne_zero,
      ← zpow_add₀ two_ne_zero]
    congr 1
    push_cast
    ring
  rw [le_div_iff₀ hden', div_lt_iff₀ hden']
  constructor
  · calc (2 : ℚ) ^ 52 * 2 ^ (a - b - 52 - 1) * den
        ≤ 2 ^ 52 * 2 ^ (a - b - 52 - 1) * (2 ^ b * 2) := by gcongr
      _ ≤ (num : ℚ) := hguess ▸ hnum₁
  · calc (num : ℚ) < 2 ^ a * 2 := hnum₂
      _ = 2 ^ 53 * 2 ^ (a - b - 52) * 2 ^ b := hguess'.symm
      _ ≤ 2 ^ 53 * 2 ^ (a - b - 52) * den := by gcongr

theorem exponentOf_spec (hnum : 0 < num) (hden : 0 < den) :
    -1074 ≤ exponentOf num den ∧ (num / den : ℚ) < 2 ^ 53 * 2 ^ exponentOf num den ∧
      (exponentOf num den = -1074 ∨ 2 ^ 52 * 2 ^ exponentOf num den ≤ (num / den : ℚ)) := by
  obtain ⟨hlow, hhigh⟩ := div_bounds hnum hden
  have htest := lt_zpow_iff num hden (2 ^ 52) ((num.log2 : ℤ) - den.log2 - 52)
  rw [exponentOf]
  simp only [Nat.pow_eq]
  generalize (num.log2 : ℤ) - den.log2 - 52 = guess at *
  -- The exponent before it is kept from becoming too small.
  obtain ⟨e, he, hlow, hhigh⟩ : ∃ e, (if num * 2 ^ (-guess).toNat < 2 ^ 52 * (den * 2 ^ guess.toNat)
      then guess - 1 else guess) = e ∧ 2 ^ 52 * 2 ^ e ≤ (num / den : ℚ) ∧
      (num / den : ℚ) < 2 ^ 53 * 2 ^ e := by
    split_ifs with hless
    · refine ⟨guess - 1, rfl, hlow, ?_⟩
      rw [htest] at hless
      rw [zpow_sub_one₀ two_ne_zero]
      push_cast at hless
      linarith
    · rw [htest, not_lt] at hless
      exact ⟨guess, rfl, by exact_mod_cast hless, hhigh⟩
  rw [he]
  rcases le_total e (-1074) with hsmall | hlarge
  · rw [max_eq_right hsmall]
    refine ⟨le_rfl, hhigh.trans_le ?_, .inl rfl⟩
    gcongr
    norm_num
  · rw [max_eq_left hlarge]
    exact ⟨hlarge, hhigh, .inr hlow⟩

/-! ## The closest magnitude -/

/-- The magnitude closest to a quotient, as if there were no largest one. -/
def nearestIndex (num den : ℕ) : ℕ :=
  if num = 0 then 0
  else
    let e := exponentOf num den
    (e + 1074).toNat * Nat.pow 2 52 +
      roundDiv (num * Nat.pow 2 (-e).toNat) (den * Nat.pow 2 e.toNat)

theorem nearestMagnitude_eq (num den : ℕ) :
    nearestMagnitude num den = min (nearestIndex num den) infiniteMagnitude := by
  unfold nearestMagnitude nearestIndex
  split_ifs <;> simp

theorem roundsTo_nearestIndex (num : ℕ) (hden : 0 < den) :
    RoundsTo (num / den) (nearestIndex num den) := by
  rcases Nat.eq_zero_or_pos num with rfl | hnum
  · simpa [nearestIndex, value_zero] using roundsTo_value 0
  obtain ⟨hleast, hhigh, hlow⟩ := exponentOf_spec hnum hden
  rw [nearestIndex, if_neg hnum.ne']
  simp only [Nat.pow_eq]
  generalize exponentOf num den = e at *
  have hden' : (0 : ℚ) < den := by exact_mod_cast hden
  have hscale : (0 : ℚ) < 2 ^ e := zpow_pos two_pos e
  -- The quotient in units of the significand.
  obtain ⟨a, ha⟩ : ∃ a, a = num * 2 ^ (-e).toNat := ⟨_, rfl⟩
  obtain ⟨b, hb⟩ : ∃ b, b = den * 2 ^ e.toNat := ⟨_, rfl⟩
  have hbpos : 0 < b := hb ▸ Nat.mul_pos hden (Nat.two_pow_pos _)
  have hbpos' : (0 : ℚ) < b := by exact_mod_cast hbpos
  have hquot : (num / den : ℚ) = a / b * 2 ^ e := by
    rw [ha, hb]
    push_cast
    exact (scaled_quotient two_ne_zero _ _ e).symm
  rw [hquot, mul_lt_mul_iff_left₀ hscale, div_lt_iff₀ hbpos'] at hhigh
  rw [hquot, mul_le_mul_iff_left₀ hscale, le_div_iff₀ hbpos'] at hlow
  rw [hquot, ← ha, ← hb]
  obtain ⟨hup, hdown, htie⟩ := roundDiv_bounds a hbpos
  generalize roundDiv a b = i at *
  have hup' : (2 * a : ℚ) ≤ (2 * i + 1) * b := by exact_mod_cast hup
  have hdown' : (2 * i * b : ℚ) ≤ 2 * a + b := by exact_mod_cast hdown
  have hle : i ≤ 2 ^ 53 := by
    norm_cast at hhigh
    nlinarith
  have hnormal : e = -1074 ∨ 2 ^ 52 ≤ i := by
    refine hlow.imp_right fun h => ?_
    norm_cast at h
    nlinarith
  refine Scaled.roundsTo ⟨rfl, hleast, hle, hnormal⟩ ?_ ?_ ?_ ?_ ?_
  · rw [mul_le_mul_iff_left₀ hscale, le_div_iff₀ hbpos']
    linarith
  · rw [mul_le_mul_iff_left₀ hscale, div_le_iff₀ hbpos']
    linarith
  · rw [mul_left_inj' hscale.ne', mul_left_inj' hscale.ne', div_eq_iff hbpos'.ne',
      div_eq_iff hbpos'.ne']
    intro h
    apply htie
    rw [← Nat.cast_inj (R := ℚ), ← Nat.cast_inj (R := ℚ)]
    push_cast
    rcases h with h | h
    · exact .inr (by linarith)
    · exact .inl (by linarith)
  · rw [mul_le_mul_iff_left₀ hscale, le_div_iff₀ hbpos']
    exact hlow
  · rw [mul_le_mul_iff_left₀ hscale, div_le_iff₀ hbpos']
    exact hhigh.le

/-! ## Signs and magnitudes -/

theorem infiniteMagnitude_lt : infiniteMagnitude < 2 ^ 63 := by decide

theorem toNat_ofMagnitude (negative : Bool) (hm : m < 2 ^ 63) :
    (ofMagnitude negative m).bits.toNat = m + if negative then 2 ^ 63 else 0 := by
  rw [ofMagnitude, UInt64.toNat_ofNat', Nat.pow_eq, Nat.mod_eq_of_lt]
  split_ifs <;> omega

theorem magnitude_ofMagnitude (negative : Bool) (hm : m < 2 ^ 63) :
    (ofMagnitude negative m).magnitude = m := by
  rw [magnitude, toNat_ofMagnitude negative hm, Nat.pow_eq]
  split_ifs <;> omega

theorem isNegative_ofMagnitude (negative : Bool) (hm : m < 2 ^ 63) :
    (ofMagnitude negative m).isNegative = negative := by
  rw [isNegative, toNat_ofMagnitude negative hm, Nat.pow_eq]
  cases negative with
  | false => simpa using hm
  | true => simp

theorem ofMagnitude_self (x : Binary64) : ofMagnitude x.isNegative x.magnitude = x := by
  have hbits : x.bits.toNat < 2 ^ 64 := x.bits.toNat_lt
  have hm : x.magnitude < 2 ^ 63 := Nat.mod_lt _ (by decide)
  have heq : (ofMagnitude x.isNegative x.magnitude).bits = x.bits := by
    rw [← UInt64.toNat_inj, toNat_ofMagnitude _ hm]
    simp only [isNegative, magnitude, Nat.pow_eq, decide_eq_true_eq]
    split_ifs <;> omega
  cases x
  exact congrArg Binary64.mk heq

theorem eq_of_magnitude (hsign : x.isNegative = y.isNegative) (hm : x.magnitude = y.magnitude) :
    x = y := by
  rw [← ofMagnitude_self x, ← ofMagnitude_self y, hsign, hm]

theorem magnitude_neg (x : Binary64) : x.neg.magnitude = x.magnitude :=
  magnitude_ofMagnitude _ (Nat.mod_lt _ (by decide))

theorem isNegative_neg (x : Binary64) : x.neg.isNegative = !x.isNegative :=
  isNegative_ofMagnitude _ (Nat.mod_lt _ (by decide))

theorem isFinite_iff (x : Binary64) : x.isFinite = true ↔ x.magnitude < infiniteMagnitude := by
  simp [isFinite]

theorem nearestMagnitude_lt (num den : ℕ) : nearestMagnitude num den < 2 ^ 63 := by
  rw [nearestMagnitude_eq]
  have := infiniteMagnitude_lt
  omega

theorem magnitude_nearest (negative : Bool) (num den : ℕ) :
    (nearest negative num den).magnitude = min (nearestIndex num den) infiniteMagnitude := by
  rw [nearest, magnitude_ofMagnitude _ (nearestMagnitude_lt num den), nearestMagnitude_eq]

theorem isNegative_nearest (negative : Bool) (num den : ℕ) :
    (nearest negative num den).isNegative = negative :=
  isNegative_ofMagnitude _ (nearestMagnitude_lt num den)

/-! ## Rounded values -/

/-- The number is what `q` rounds to, infinite if it is too large. -/
def Rounds (q : ℚ) (x : Binary64) : Prop :=
  ∃ m, RoundsTo q m ∧ x.magnitude = min m infiniteMagnitude

theorem rounds_nearest (negative : Bool) (num : ℕ) (hden : 0 < den) :
    Rounds (num / den) (nearest negative num den) :=
  ⟨_, roundsTo_nearestIndex num hden, magnitude_nearest negative num den⟩

theorem Rounds.roundsTo (h : Rounds q x) (hx : x.isFinite) : RoundsTo q x.magnitude := by
  obtain ⟨m, hm, hmagnitude⟩ := h
  rw [isFinite_iff] at hx
  obtain rfl : x.magnitude = m := by omega
  exact hm

theorem Rounds.isFinite (h : Rounds q x) (hm : m < infiniteMagnitude) (hle : q ≤ value m) :
    x.isFinite := by
  obtain ⟨i, hi, hmagnitude⟩ := h
  have := hi.mono (roundsTo_value m) hle
  rw [isFinite_iff]
  omega

theorem nearest_eq (hx : x.isFinite) (hden : 0 < den) (h : RoundsTo (num / den) x.magnitude) :
    nearest x.isNegative num den = x := by
  rw [isFinite_iff] at hx
  rw [nearest, nearestMagnitude_eq, (roundsTo_nearestIndex num hden).unique h, min_eq_left hx.le,
    ofMagnitude_self]

theorem rounds_ofNat (n : ℕ) : Rounds n (ofNat n) := by
  simpa [ofNat] using rounds_nearest false n Nat.one_pos

theorem rounds_powerOfTen (k : ℕ) : Rounds (10 ^ k) (powerOfTen k) := by
  simpa [powerOfTen] using rounds_ofNat (Nat.pow 10 k)

theorem rounds_mul (x y : Binary64) : Rounds (value x.magnitude * value y.magnitude) (x.mul y) := by
  rw [← numerator_div_denominator, ← numerator_div_denominator, div_mul_div_comm, ← Nat.cast_mul,
    ← Nat.cast_mul]
  exact rounds_nearest _ _ (Nat.mul_pos x.denominator_pos y.denominator_pos)

theorem rounds_div (x : Binary64) (hy : 0 < value y.magnitude) :
    Rounds (value x.magnitude / value y.magnitude) (x.div y) := by
  rw [← numerator_div_denominator y] at hy ⊢
  have hnum : 0 < y.numerator := by
    have hden : (0 : ℚ) < y.denominator := by exact_mod_cast y.denominator_pos
    rw [div_pos_iff_of_pos_right hden] at hy
    exact_mod_cast hy
  rw [← numerator_div_denominator, div_div_div_eq, ← Nat.cast_mul, ← Nat.cast_mul]
  exact rounds_nearest _ _ (Nat.mul_pos x.denominator_pos hnum)

/-! ## Exact values -/

theorem exists_value (hk : k ≤ 2 ^ 53) (he : -1074 ≤ e) : ∃ m, value m = k * 2 ^ e := by
  obtain ⟨t, rfl⟩ : ∃ t : ℕ, e = t - 1074 := ⟨(e + 1074).toNat, by omega⟩
  induction t generalizing k with
  | zero => exact ⟨_, Scaled.value_eq ⟨rfl, by omega, hk, .inl (by simp)⟩⟩
  | succ t ih =>
    rcases Nat.lt_or_ge k (2 ^ 52) with hsmall | hlarge
    · -- Twice the significand at the exponent before.
      obtain ⟨m, hm⟩ := ih (k := 2 * k) (by omega) (by omega)
      refine ⟨m, ?_⟩
      rw [hm, show ((t + 1 : ℕ) : ℤ) - 1074 = (t - 1074) + 1 by omega, zpow_add_one₀ two_ne_zero]
      push_cast
      ring
    · exact ⟨_, Scaled.value_eq ⟨rfl, by omega, hk, .inr hlarge⟩⟩

end DocAnnotations.Binary64
