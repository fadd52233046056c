import DocAnnotations.Number.Shortest
import DocAnnotations.Proofs.Number.Rounding

/-!
# Shortest digits identify the number

The search finds a decimal that rounds to the number on the grid of the
seventeenth digit at the latest.
-/

namespace DocAnnotations.Binary64

variable {c m : ℕ} {s : ℤ} {x : Binary64}

/-! ## Comparing decimals -/

theorem exists_scale (c : ℕ) (s : ℤ) (d : ℕ) (e : ℤ) : ∃ p : ℚ, 0 < p ∧
    ((c * Nat.pow 10 s.toNat * Nat.pow 2 (-e).toNat : ℕ) : ℚ) = c * 10 ^ s * p ∧
    ((d * Nat.pow 2 e.toNat * Nat.pow 10 (-s).toNat : ℕ) : ℚ) = d * 2 ^ e * p := by
  -- Each side lacks the powers that have a negative exponent.
  refine ⟨10 ^ (-s).toNat * 2 ^ (-e).toNat, by positivity, ?_, ?_⟩
  · have hten := zpow_mul_toNat (b := 10) (by norm_num) s
    simp only [Nat.pow_eq]
    push_cast
    rw [← hten]
    ring
  · have htwo := zpow_mul_toNat (two_ne_zero (α := ℚ)) e
    simp only [Nat.pow_eq]
    push_cast
    rw [← htwo]
    ring

theorem atMost_iff (c : ℕ) (s : ℤ) (d : ℕ) (e : ℤ) :
    atMost c s d e = true ↔ (c * 10 ^ s : ℚ) ≤ d * 2 ^ e := by
  obtain ⟨p, hp, hleft, hright⟩ := exists_scale c s d e
  rw [atMost, decide_eq_true_iff, ← Nat.cast_le (α := ℚ), hleft, hright, mul_le_mul_iff_left₀ hp]

theorem below_iff (c : ℕ) (s : ℤ) (d : ℕ) (e : ℤ) :
    below c s d e = true ↔ (c * 10 ^ s : ℚ) < d * 2 ^ e := by
  obtain ⟨p, hp, hleft, hright⟩ := exists_scale c s d e
  rw [below, decide_eq_true_iff, ← Nat.cast_lt (α := ℚ), hleft, hright, mul_lt_mul_iff_left₀ hp]

/-! ## The interval of a number -/

theorem upperEnd_eq (x : Binary64) :
    (x.upperEnd : ℚ) * 2 ^ (x.exponent - 2) = middle x.magnitude := by
  rw [x.scaled_magnitude.middle_eq x.significand_lt, upperEnd, quarters, zpow_sub₀ two_ne_zero]
  push_cast
  ring

theorem lowerEnd_eq (hm : x.magnitude = m + 1) :
    (x.lowerEnd : ℚ) * 2 ^ (x.exponent - 2) = middle m := by
  have hscaled : Scaled (m + 1) x.significand x.exponent := hm ▸ x.scaled_magnitude
  have hsig : 1 ≤ x.significand := by
    have := hscaled.eq
    have := hscaled.least
    have := hscaled.normal
    omega
  have hpow : Nat.pow 2 52 = 2 ^ 52 := rfl
  rw [hscaled.middle_pred, lowerEnd, quarters, zpow_sub₀ two_ne_zero, hpow]
  split_ifs
  · rw [Nat.cast_sub (by omega)]
    push_cast
    ring
  · rw [Nat.cast_sub (by omega)]
    push_cast
    ring

theorem owns_iff (hm : x.magnitude = m + 1) (c : ℕ) (s : ℤ) :
    x.owns c s = true ↔ RoundsTo (c * 10 ^ s) x.magnitude := by
  have heven : Even (m + 1) ↔ x.significand % 2 = 0 := by
    rw [← hm, x.scaled_magnitude.even_iff, Nat.even_iff]
  have hlow := lowerEnd_eq hm
  have hhigh := x.upperEnd_eq
  rw [hm] at hhigh ⊢
  rw [roundsTo_succ_iff, heven]
  unfold owns
  simp only
  split_ifs with h
  · simp only [h, implies_true, and_true, Bool.and_eq_true, Bool.not_eq_true', Bool.eq_false_iff,
      ne_eq, below_iff, atMost_iff, hlow, hhigh, not_lt]
  · -- The ends belong to the even neighbours.
    simp only [h, imp_false, ← ne_eq, ← lt_iff_le_and_ne]
    simp only [Bool.and_eq_true, Bool.not_eq_true', Bool.eq_false_iff, ne_eq, below_iff, atMost_iff,
      hlow, hhigh, not_le]

/-! ## The decimal point -/

theorem guess_bounds {l : ℤ} (hlow : -1074 ≤ l) (hhigh : l ≤ 1023) :
    (10 : ℚ) ^ (l * 30103 / 100000 - 1) ≤ 2 ^ l ∧
      (2 : ℚ) ^ (l + 1) ≤ 10 ^ (l * 30103 / 100000 + 2) := by
  -- 30103 powers of ten make about 100000 of two; every exponent is tried.
  have hall : (List.range 2098).all (fun i =>
      let l : ℤ := i - 1074
      atMost 1 (l * 30103 / 100000 - 1) 1 l && !below 1 (l * 30103 / 100000 + 2) 1 (l + 1)) =
      true := by decide +kernel
  obtain ⟨i, rfl⟩ : ∃ i : ℕ, l = i - 1074 := ⟨(l + 1074).toNat, by omega⟩
  have hi := List.all_eq_true.mp hall i (List.mem_range.mpr (by omega))
  simp only [Bool.and_eq_true, Bool.not_eq_true', Bool.eq_false_iff, ne_eq, atMost_iff, below_iff,
    not_lt, Nat.cast_one, one_mul] at hi
  exact hi

theorem significand_pos (hm : 0 < x.magnitude) : 0 < x.significand := by
  have hscaled := x.scaled_magnitude
  have := hscaled.eq
  have := hscaled.least
  have := hscaled.normal
  omega

theorem exponent_le (hx : x.isFinite) : x.exponent ≤ 971 := by
  rw [isFinite_iff] at hx
  simp only [infiniteMagnitude, exponent, Nat.pow_eq] at hx ⊢
  split_ifs <;> omega

theorem decimalPoint_spec (hm : 0 < x.magnitude) (hx : x.isFinite) :
    (10 : ℚ) ^ (x.decimalPoint - 1) ≤ value x.magnitude ∧
      value x.magnitude < 10 ^ x.decimalPoint := by
  have hsig := significand_pos hm
  have hlog : x.significand.log2 ≤ 52 := by
    have := (Nat.log2_lt hsig.ne').mpr x.significand_lt
    omega
  have hleast := x.scaled_magnitude.least
  have hgreatest := exponent_le hx
  obtain ⟨hguess, hguess'⟩ := guess_bounds (l := x.significand.log2 + x.exponent) (by omega)
    (by omega)
  have hscale : (0 : ℚ) < 2 ^ x.exponent := zpow_pos two_pos _
  have hlow : (2 : ℚ) ^ (x.significand.log2 + x.exponent : ℤ) ≤ value x.magnitude := by
    have hself : (2 : ℚ) ^ x.significand.log2 ≤ x.significand := by
      exact_mod_cast Nat.log2_self_le hsig.ne'
    rw [x.scaled_magnitude.value_eq, zpow_add₀ two_ne_zero, zpow_natCast]
    gcongr
  have hhigh : value x.magnitude < (2 : ℚ) ^ (x.significand.log2 + x.exponent + 1 : ℤ) := by
    have hself : (x.significand : ℚ) < 2 ^ (x.significand.log2 + 1) := by
      exact_mod_cast Nat.lt_log2_self
    rw [x.scaled_magnitude.value_eq, add_right_comm, zpow_add₀ two_ne_zero, ← Nat.cast_succ,
      zpow_natCast]
    gcongr
  unfold decimalPoint
  simp only [Bool.not_eq_true', Bool.eq_false_iff, ne_eq, atMost_iff, Nat.cast_one, one_mul]
  rw [← x.scaled_magnitude.value_eq]
  generalize ((x.significand.log2 : ℤ) + x.exponent) * 30103 / 100000 = guess at *
  split_ifs with h h'
  · rw [show guess + 2 - 1 = guess + 1 by ring]
    exact ⟨h', hhigh.trans_le hguess'⟩
  · rw [add_sub_cancel_right]
    exact ⟨h, not_le.mp h'⟩
  · exact ⟨hguess.trans hlow, not_le.mp h⟩

/-! ## The grids -/

theorem floorOnGrid_spec (x : Binary64) (s : ℤ) :
    (x.floorOnGrid s * 10 ^ s : ℚ) ≤ value x.magnitude ∧
      value x.magnitude < (x.floorOnGrid s + 1) * 10 ^ s := by
  obtain ⟨a, ha⟩ : ∃ a, a = x.numerator * Nat.pow 10 (-s).toNat := ⟨_, rfl⟩
  obtain ⟨b, hb⟩ : ∃ b, b = x.denominator * Nat.pow 10 s.toNat := ⟨_, rfl⟩
  have hbpos : 0 < b := hb ▸ Nat.mul_pos x.denominator_pos (Nat.pow_pos (by decide))
  have hbpos' : (0 : ℚ) < b := by exact_mod_cast hbpos
  have hscale : (0 : ℚ) < 10 ^ s := zpow_pos (by norm_num) s
  have hvalue : value x.magnitude = a / b * 10 ^ s := by
    rw [← numerator_div_denominator, ha, hb]
    simp only [Nat.pow_eq]
    push_cast
    exact (scaled_quotient (by norm_num) _ _ s).symm
  have hlow : (((a / b : ℕ) * b : ℕ) : ℚ) ≤ a := by exact_mod_cast Nat.div_mul_le_self a b
  have hhigh : (a : ℚ) < ((a / b + 1 : ℕ) * b : ℕ) := by
    rw [mul_comm]
    exact_mod_cast Nat.lt_mul_div_succ a hbpos
  rw [floorOnGrid, ← ha, ← hb, hvalue, mul_le_mul_iff_left₀ hscale, mul_lt_mul_iff_left₀ hscale,
    le_div_iff₀ hbpos', div_lt_iff₀ hbpos']
  push_cast at hlow hhigh
  exact ⟨hlow, hhigh⟩

theorem roundsTo_of_between {q : ℚ} {n : ℕ} (hlow : middle m < q) (hn : n = m + 1)
    (hhigh : q < middle n) : RoundsTo q n := by
  subst hn
  exact roundsTo_succ_iff.mpr
    ⟨⟨hlow.le, fun h => absurd h hlow.ne⟩, hhigh.le, fun h => absurd h hhigh.ne⟩

theorem grid_lt (hm : x.magnitude = m + 1) (h : (10 : ℚ) ^ s * 10 ^ 16 ≤ value x.magnitude) :
    (10 : ℚ) ^ s < middle x.magnitude - middle m := by
  have hscaled : Scaled (m + 1) x.significand x.exponent := hm ▸ x.scaled_magnitude
  have hscale : (0 : ℚ) < 2 ^ x.exponent := zpow_pos two_pos _
  rw [x.scaled_magnitude.value_eq] at h
  rw [x.scaled_magnitude.middle_eq x.significand_lt, hscaled.middle_pred]
  -- Below a power of two the numbers lie twice as close.
  split_ifs with hfirst
  · rw [hfirst.1] at h ⊢
    push_cast at h ⊢
    linarith
  · have hsig : (x.significand : ℚ) < 2 ^ 53 := by exact_mod_cast x.significand_lt
    nlinarith

theorem owns_floor_or (hm : x.magnitude = m + 1)
    (h : (10 : ℚ) ^ s * 10 ^ 16 ≤ value x.magnitude) :
    x.owns (x.floorOnGrid s) s = true ∨ x.owns (x.floorOnGrid s + 1) s = true := by
  obtain ⟨hlow, hhigh⟩ := x.floorOnGrid_spec s
  have hgap := grid_lt hm h
  have hbelow : middle m < value x.magnitude := hm ▸ middle_lt_value m
  have habove := value_lt_middle x.magnitude
  rw [owns_iff hm, owns_iff hm]
  -- If the lower neighbour is at or below the lower end, the upper one is below the upper end.
  rcases lt_or_ge (middle m) (x.floorOnGrid s * 10 ^ s) with hinside | houtside
  · exact .inl (roundsTo_of_between hinside hm (hlow.trans_lt habove))
  · refine .inr (roundsTo_of_between ?_ hm ?_)
    · push_cast
      exact hbelow.trans hhigh
    · push_cast
      linarith

theorem onGrid_eq_some (h : x.onGrid s = some c) :
    x.owns c s = true ∧ (c = x.floorOnGrid s ∨ c = x.floorOnGrid s + 1) := by
  unfold onGrid at h
  simp only at h
  split at h
  · next hlow hhigh =>
    split_ifs at h <;> obtain rfl := Option.some.inj h
    · exact ⟨hhigh, .inr rfl⟩
    · exact ⟨hlow, .inl rfl⟩
  · next hlow _ =>
    obtain rfl := Option.some.inj h
    exact ⟨hlow, .inl rfl⟩
  · next _ hhigh =>
    obtain rfl := Option.some.inj h
    exact ⟨hhigh, .inr rfl⟩
  · simp at h

theorem onGrid_ne_none
    (h : x.owns (x.floorOnGrid s) s = true ∨ x.owns (x.floorOnGrid s + 1) s = true) :
    x.onGrid s ≠ none := by
  unfold onGrid
  simp only
  split <;> simp_all

theorem searchGrids_eq_some {fuel : ℕ} {t : ℤ} (h : x.searchGrids fuel s = some (c, t)) :
    x.onGrid t = some c ∧ t ≤ s ∧ s - fuel < t := by
  induction fuel generalizing s with
  | zero => simp [searchGrids] at h
  | succ fuel ih =>
    rw [searchGrids] at h
    split at h
    · next c' hc =>
      obtain ⟨rfl, rfl⟩ := Prod.mk.inj (Option.some.inj h)
      exact ⟨hc, le_rfl, by omega⟩
    · obtain ⟨hc, hle, hlt⟩ := ih h
      exact ⟨hc, by omega, by omega⟩

theorem searchGrids_ne_none {fuel : ℕ} {i : ℕ} (hi : i < fuel) (h : x.onGrid (s - i) ≠ none) :
    x.searchGrids fuel s ≠ none := by
  induction fuel generalizing s i with
  | zero => omega
  | succ fuel ih =>
    rw [searchGrids]
    split
    · simp
    · next hnone =>
      cases i with
      | zero => exact absurd hnone (by simpa using h)
      | succ i =>
        apply ih (by omega : i < fuel)
        rwa [sub_sub, add_comm, ← Nat.cast_succ]

/-! ## Shortest digits -/

/-- The shortest digits come from a decimal that rounds to the number and has seventeen digits at
most, or is the seventeenth power of ten. -/
theorem exists_shortest (hm : 0 < x.magnitude) (hx : x.isFinite) :
    ∃ (c : ℕ) (s : ℤ), RoundsTo (c * 10 ^ s) x.magnitude ∧ 0 < c ∧ c ≤ 10 ^ 17 ∧
      x.shortest =
        ⟨dropTrailingZeros (Nat.toDigits 10 c), ((Nat.toDigits 10 c).length + s : ℤ)⟩ := by
  obtain ⟨m, hm'⟩ : ∃ m, x.magnitude = m + 1 := ⟨x.magnitude - 1, by omega⟩
  obtain ⟨hlow, hhigh⟩ := decimalPoint_spec hm hx
  have hfound : x.searchGrids 17 (x.decimalPoint - 1) ≠ none := by
    refine searchGrids_ne_none (i := 16) (by omega) (onGrid_ne_none (owns_floor_or hm' ?_))
    rw [← zpow_natCast, ← zpow_add₀ (by norm_num)]
    simpa using hlow
  obtain ⟨⟨c, s⟩, hsearch⟩ := Option.ne_none_iff_exists'.mp hfound
  obtain ⟨hgrid, hs, hs'⟩ := searchGrids_eq_some hsearch
  obtain ⟨howns, hc⟩ := onGrid_eq_some hgrid
  obtain ⟨hfloor, hfloor'⟩ := x.floorOnGrid_spec s
  have hscale : (0 : ℚ) < 10 ^ s := zpow_pos (by norm_num) s
  refine ⟨c, s, (owns_iff hm' c s).mp howns, ?_, ?_, ?_⟩
  · -- The grid is no coarser than the first digit of the number.
    have hone : (10 : ℚ) ^ s ≤ 10 ^ (x.decimalPoint - 1) := by
      gcongr
      norm_num
    have hpos : (0 : ℚ) < x.floorOnGrid s := by
      by_contra hzero
      nlinarith
    have hpos' : 0 < x.floorOnGrid s := by exact_mod_cast hpos
    omega
  · have hbound : (x.floorOnGrid s : ℚ) < 10 ^ 17 := by
      have hgrids : (10 : ℚ) ^ x.decimalPoint ≤ 10 ^ 17 * 10 ^ s := by
        rw [← zpow_natCast, ← zpow_add₀ (by norm_num)]
        gcongr
        · norm_num
        · push_cast
          omega
      nlinarith
    have hbound' : x.floorOnGrid s < 10 ^ 17 := by exact_mod_cast hbound
    omega
  · rw [shortest, hsearch]

end DocAnnotations.Binary64
