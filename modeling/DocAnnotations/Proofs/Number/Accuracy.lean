import DocAnnotations.Proofs.Number.Rounding

/-!
# Accuracy of scaling

How far from the exact decimal a significand ends up that is rounded, scaled by a
rounded power of ten and rounded again.
-/

namespace DocAnnotations.Binary64

variable {m n k i j : ℕ} {e : ℤ} {q r a b c d v w : ℚ} {x : Binary64}

/-! ## Relative errors -/

/-- The two numbers are `j` roundings apart. -/
structure Near (j : ℕ) (a b : ℚ) : Prop where
  le : a ≤ b * (1 + 1 / 2 ^ 53) ^ j
  ge : b ≤ a * (1 + 1 / 2 ^ 53) ^ j

theorem Near.mul (ha : 0 ≤ a) (hb : 0 ≤ b) (hc : 0 ≤ c) (hd : 0 ≤ d) (h : Near i a b)
    (h' : Near j c d) : Near (i + j) (a * c) (b * d) := by
  constructor
  · calc a * c ≤ b * (1 + 1 / 2 ^ 53) ^ i * (d * (1 + 1 / 2 ^ 53) ^ j) :=
        mul_le_mul h.le h'.le hc (by positivity)
      _ = b * d * (1 + 1 / 2 ^ 53) ^ (i + j) := by ring
  · calc b * d ≤ a * (1 + 1 / 2 ^ 53) ^ i * (c * (1 + 1 / 2 ^ 53) ^ j) :=
        mul_le_mul h.ge h'.ge hd (by positivity)
      _ = a * c * (1 + 1 / 2 ^ 53) ^ (i + j) := by ring

theorem Near.inv (ha : 0 < a) (hb : 0 < b) (h : Near j a b) : Near j a⁻¹ b⁻¹ := by
  constructor
  · rw [inv_mul_eq_div, inv_eq_one_div, div_le_div_iff₀ ha hb, one_mul, mul_comm]
    exact h.ge
  · rw [inv_mul_eq_div, inv_eq_one_div, div_le_div_iff₀ hb ha, one_mul, mul_comm]
    exact h.le

theorem Near.div (ha : 0 ≤ a) (hb : 0 ≤ b) (hc : 0 < c) (hd : 0 < d) (h : Near i a b)
    (h' : Near j c d) : Near (i + j) (a / c) (b / d) := by
  rw [div_eq_mul_inv, div_eq_mul_inv]
  exact h.mul ha hb (by positivity) (by positivity) (h'.inv hc hd)

theorem Near.trans (h : Near i a b) (h' : Near j b c) : Near (i + j) a c := by
  constructor
  · calc a ≤ b * (1 + 1 / 2 ^ 53) ^ i := h.le
      _ ≤ c * (1 + 1 / 2 ^ 53) ^ j * (1 + 1 / 2 ^ 53) ^ i := by gcongr; exact h'.le
      _ = c * (1 + 1 / 2 ^ 53) ^ (i + j) := by ring
  · calc c ≤ b * (1 + 1 / 2 ^ 53) ^ j := h'.ge
      _ ≤ a * (1 + 1 / 2 ^ 53) ^ i * (1 + 1 / 2 ^ 53) ^ j := by gcongr; exact h.ge
      _ = a * (1 + 1 / 2 ^ 53) ^ (i + j) := by ring

theorem Scaled.le_of_lt (h : Scaled m k e) (hi : i ≤ 52)
    (hlt : (2 : ℚ) ^ (-1022 - i : ℤ) < (k + 1) * 2 ^ e) : 2 ^ 52 ≤ k * 2 ^ i := by
  -- Below the normal range every halving costs a bit of the significand.
  rcases h.normal with rfl | hk
  · have hsplit : (2 : ℚ) ^ (-1022 - i : ℤ) = 2 ^ (52 - i) * 2 ^ (-1074 : ℤ) := by
      rw [← zpow_natCast, ← zpow_add₀ two_ne_zero, Nat.cast_sub hi]
      congr 1
      push_cast
      ring
    rw [hsplit, mul_lt_mul_iff_left₀ (zpow_pos two_pos _)] at hlt
    norm_cast at hlt
    calc 2 ^ 52 = 2 ^ (52 - i) * 2 ^ i := by rw [← pow_add, Nat.sub_add_cancel hi]
      _ ≤ k * 2 ^ i := Nat.mul_le_mul_right _ (Nat.lt_succ_iff.mp hlt)
  · exact hk.trans (Nat.le_mul_of_pos_right k (Nat.two_pow_pos i))

theorem half_le (h : 2 ^ 52 ≤ k * 2 ^ i) :
    (k + 1 / 2 : ℚ) ≤ k * (1 + 1 / 2 ^ 53) ^ 2 ^ i ∧
      (k + 1 : ℚ) ≤ (k + 1 / 2) * (1 + 1 / 2 ^ 53) ^ 2 ^ i := by
  have hcast : (2 : ℚ) ^ 52 ≤ k * 2 ^ i := by exact_mod_cast h
  -- Half a unit of the significand is no more than `2 ^ i` roundings in a row.
  have hpow : 1 + (2 : ℚ) ^ i * (1 / 2 ^ 53) ≤ (1 + 1 / 2 ^ 53) ^ 2 ^ i := by
    have := one_add_mul_le_pow (a := (1 / 2 ^ 53 : ℚ)) (by norm_num) (2 ^ i)
    exact_mod_cast this
  have hk : (0 : ℚ) ≤ k := by positivity
  have hi : (0 : ℚ) < 2 ^ i := by positivity
  constructor
  · calc (k + 1 / 2 : ℚ) ≤ k * (1 + 2 ^ i * (1 / 2 ^ 53)) := by linarith
      _ ≤ k * (1 + 1 / 2 ^ 53) ^ 2 ^ i := by gcongr
  · calc (k + 1 : ℚ) ≤ (k + 1 / 2) * (1 + 2 ^ i * (1 / 2 ^ 53)) := by linarith
      _ ≤ (k + 1 / 2) * (1 + 1 / 2 ^ 53) ^ 2 ^ i := by gcongr

theorem RoundsTo.near (h : RoundsTo q m) (hi : i ≤ 52) (hq : (2 : ℚ) ^ (-1022 - i : ℤ) ≤ q) :
    Near (2 ^ i) (value m) q := by
  have hone : (1 : ℚ) ≤ (1 + 1 / 2 ^ 53) ^ 2 ^ i := one_le_pow₀ (by norm_num)
  have hqpos : 0 < q := (zpow_pos two_pos _).trans_le hq
  rcases le_or_gt (value m) q with hle | hlt
  · -- Rounded down: half a unit of the significand is missing at most.
    obtain ⟨k, e, hscaled, hk⟩ := exists_scaled m
    have hscale : (0 : ℚ) < 2 ^ e := zpow_pos two_pos e
    have hbelow := h.below.1
    rw [hscaled.middle_eq hk] at hbelow
    have hsig := hscaled.le_of_lt hi (hq.trans_lt (by linarith))
    refine ⟨hle.trans (le_mul_of_one_le_right hqpos.le hone), hbelow.trans ?_⟩
    rw [hscaled.value_eq, mul_right_comm]
    gcongr
    exact (half_le hsig).1
  · -- Rounded up, from the magnitude before it.
    obtain ⟨n, rfl⟩ : ∃ n, m = n + 1 := by
      cases m with
      | zero =>
        rw [value_zero] at hlt
        linarith
      | succ n => exact ⟨n, rfl⟩
    obtain ⟨k, e, hscaled, hk⟩ := exists_scaled n
    have hscale : (0 : ℚ) < 2 ^ e := zpow_pos two_pos e
    have habove := (h.above n rfl).1
    rw [hscaled.middle_eq hk] at habove
    have hnext := (hscaled.succ hk).value_eq
    push_cast at hnext
    have hsig := hscaled.le_of_lt hi (hq.trans_lt (hnext ▸ hlt))
    refine ⟨?_, hlt.le.trans (le_mul_of_one_le_right (value_nonneg _) hone)⟩
    calc value (n + 1) = (k + 1) * 2 ^ e := hnext
      _ ≤ (k + 1 / 2) * (1 + 1 / 2 ^ 53) ^ 2 ^ i * 2 ^ e := by
        gcongr
        exact (half_le hsig).2
      _ = (k + 1 / 2) * 2 ^ e * (1 + 1 / 2 ^ 53) ^ 2 ^ i := by ring
      _ ≤ q * (1 + 1 / 2 ^ 53) ^ 2 ^ i := by gcongr

/-! ## Errors in units of the last place -/

theorem gap_le_succ (m : ℕ) : value (m + 1) - value m ≤ value (m + 2) - value (m + 1) := by
  obtain ⟨k, e, h, hk⟩ := exists_scaled m
  have hnext := h.succ hk
  have hscale : (0 : ℚ) < 2 ^ e := zpow_pos two_pos e
  rcases Nat.lt_or_ge (k + 1) (2 ^ 53) with hk' | hk'
  · rw [(hnext.succ hk').value_eq, hnext.value_eq, h.value_eq]
    push_cast
    linarith
  · -- The next exponent begins.
    obtain rfl : k = 2 ^ 53 - 1 := by omega
    have hfirst : Scaled (m + 1) (2 ^ 52) (e + 1) := by
      obtain ⟨heq, hleast, -, -⟩ := hnext
      refine ⟨?_, by omega, by norm_num, .inr le_rfl⟩
      rw [heq]
      omega
    rw [(hfirst.succ (by norm_num)).value_eq, hfirst.value_eq, h.value_eq,
      zpow_add_one₀ two_ne_zero]
    push_cast
    norm_num
    linarith

theorem middle_add_le (m j : ℕ) : middle m + j * (value (m + 1) - value m) ≤ middle (m + j) := by
  -- The steps between magnitudes never get smaller.
  have hgap : ∀ j, value (m + 1) - value m ≤ value (m + j + 1) - value (m + j) := by
    intro j
    induction j with
    | zero => rfl
    | succ j ih => exact ih.trans (gap_le_succ (m + j))
  induction j with
  | zero => simp
  | succ j ih =>
    have hlast := hgap j
    have hnext := hgap (j + 1)
    rw [← add_assoc] at hnext ⊢
    rw [middle] at ih ⊢
    rw [middle] at ih ⊢
    push_cast
    linarith

theorem RoundsTo.le_add (hv : RoundsTo v m) (hw : RoundsTo w n) (hle : w ≤ v * r) (hr : 1 ≤ r)
    (hj : (2 ^ 53 - 1 / 2) * (r - 1) < (j : ℚ)) : n ≤ m + j := by
  obtain ⟨k, e, h, hk⟩ := exists_scaled m
  have hscale : (0 : ℚ) < 2 ^ e := zpow_pos two_pos e
  have hv' := hv.below.1
  have hsteps := middle_add_le m j
  rw [(h.succ hk).value_eq, h.value_eq] at hsteps
  have hmiddle := h.middle_eq hk
  have hbound : middle m ≤ (2 ^ 53 - 1 / 2) * 2 ^ e := by
    have hk' : (k : ℚ) + 1 ≤ 2 ^ 53 := by exact_mod_cast hk
    rw [hmiddle]
    gcongr
    linarith
  have hlt : w < middle (m + j) := by
    calc w ≤ middle m * r := hle.trans (by gcongr)
      _ = middle m + middle m * (r - 1) := by ring
      _ ≤ middle m + (2 ^ 53 - 1 / 2) * 2 ^ e * (r - 1) := by gcongr
      _ < middle m + j * 2 ^ e := by nlinarith
      _ ≤ middle (m + j) := by
        push_cast at hsteps
        linarith
  by_contra hfar
  obtain ⟨i, rfl⟩ : ∃ i, n = i + 1 := ⟨n - 1, by omega⟩
  have habove := (hw.above i rfl).1
  have hmono : middle (m + j) ≤ middle i := middle_strictMono.monotone (by omega)
  linarith

theorem Near.le_add (h : Near i w v) (hv : RoundsTo v m) (hw : RoundsTo w n)
    (hj : (2 ^ 53 - 1 / 2) * ((1 + 1 / 2 ^ 53) ^ i - 1) < (j : ℚ)) : n ≤ m + j ∧ m ≤ n + j := by
  have hone : (1 : ℚ) ≤ (1 + 1 / 2 ^ 53) ^ i := one_le_pow₀ (by norm_num)
  exact ⟨hv.le_add hw h.le hone hj, hw.le_add hv h.ge hone hj⟩

/-! ## Scaling by powers of ten -/

/-- A significand scaled by a power of ten: multiplied once, or divided once or twice. -/
def approximate (significand : ℕ) (e : ℤ) : Binary64 :=
  if 0 ≤ e then (ofNat significand).mul (powerOfTen e.toNat)
  else if -308 ≤ e then (ofNat significand).div (powerOfTen e.natAbs)
  else ((ofNat significand).div (powerOfTen 308)).div (powerOfTen (e + 308).natAbs)

variable {s : ℕ}

theorem Rounds.isFinite_of_le (h : Rounds q x) (hq : q ≤ 10 ^ 308) : x.isFinite := by
  have hscaled : Scaled (2046 * 2 ^ 52 + 2 ^ 51) (3 * 2 ^ 51) 971 :=
    ⟨by decide, by decide, by decide, .inr (by decide)⟩
  have hten : (10 : ℚ) ^ 308 ≤ (3 * 2 ^ 51 : ℕ) * 2 ^ (971 : ℤ) := by
    have hnat : 10 ^ 308 ≤ 3 * 2 ^ 51 * 2 ^ 971 := by decide +kernel
    exact_mod_cast hnat
  exact h.isFinite (by decide : 2046 * 2 ^ 52 + 2 ^ 51 < infiniteMagnitude)
    (hscaled.value_eq ▸ hq.trans hten)

theorem near_of_one_le (h : Rounds q x) (hq : 1 ≤ q) (hq' : q ≤ 10 ^ 308) :
    Near 1 (value x.magnitude) q := by
  have hround := h.roundsTo (h.isFinite_of_le hq')
  refine hround.near (i := 0) (by omega) (le_trans ?_ hq)
  exact zpow_le_one_of_nonpos₀ (by norm_num) (by norm_num)

theorem near_powerOfTen (hk : k ≤ 308) : Near 1 (value (powerOfTen k).magnitude) (10 ^ k) :=
  near_of_one_le (rounds_powerOfTen k) (one_le_pow₀ (by norm_num))
    (pow_le_pow_right₀ (by norm_num) hk)

theorem Near.pos (h : Near j a b) (hb : 0 < b) : 0 < a := by
  by_contra hneg
  have hge := h.ge
  have hpow : (0 : ℚ) < (1 + 1 / 2 ^ 53) ^ j := by positivity
  nlinarith

theorem cast_le_of_lt (hs : s < 2 ^ 64) : (s : ℚ) ≤ 10 ^ 308 := by
  have hcast : (s : ℚ) < 2 ^ 64 := by exact_mod_cast hs
  calc (s : ℚ) ≤ 10 ^ 20 := hcast.le.trans (by norm_num)
    _ ≤ 10 ^ 308 := pow_le_pow_right₀ (by norm_num) (by norm_num)

theorem magnitude_ofNat_pos (hs : 0 < s) (hs' : s < 2 ^ 64) : 0 < (ofNat s).magnitude := by
  have hone : (1 : ℚ) ≤ s := by exact_mod_cast hs
  have hpos := (near_of_one_le (rounds_ofNat s) hone (cast_le_of_lt hs')).pos (by linarith)
  rwa [← value_zero, value_strictMono.lt_iff_lt] at hpos

theorem value_powerOfTen_pos (hk : k ≤ 308) : 0 < value (powerOfTen k).magnitude :=
  (near_powerOfTen hk).pos (by positivity)

theorem pow_ten_mul_le (hk : k ≤ 308) :
    (2 : ℚ) ^ (-1022 - (2 : ℕ) : ℤ) * (17 / 10 * 10 ^ k) ≤ 1 := by
  have hnat : 17 * 10 ^ k ≤ 10 * 2 ^ 1024 :=
    (Nat.mul_le_mul_left 17 (Nat.pow_le_pow_right (by decide) hk)).trans (by decide +kernel)
  have hcast : (17 : ℚ) * 10 ^ k ≤ 10 * 2 ^ 1024 := by exact_mod_cast hnat
  rw [show (-1022 - (2 : ℕ) : ℤ) = -(1024 : ℕ) by norm_num, zpow_neg, zpow_natCast,
    inv_mul_le_iff₀ (by positivity), mul_one, div_mul_eq_mul_div, div_le_iff₀ (by norm_num),
    mul_comm _ (10 : ℚ)]
  exact hcast

theorem near_div_powerOfTen (hs : 0 < s) (hs' : (s : ℚ) ≤ 10 ^ k) (hk : k ≤ 308) :
    Near 6 (value ((ofNat s).div (powerOfTen k)).magnitude) (s / 10 ^ k) := by
  have hone : (1 : ℚ) ≤ s := by exact_mod_cast hs
  have htpos : (0 : ℚ) < 10 ^ k := by positivity
  have hlarge : (s : ℚ) ≤ 10 ^ 308 := hs'.trans (pow_le_pow_right₀ (by norm_num) hk)
  have hsig := near_of_one_le (rounds_ofNat s) hone hlarge
  have hquot := hsig.div (hsig.pos (by linarith)).le (by linarith) (value_powerOfTen_pos hk)
    htpos (near_powerOfTen hk)
  have hround := rounds_div (ofNat s) (value_powerOfTen_pos hk)
  -- The quotient can leave the normal range by two bits at most.
  have hlimit := pow_ten_mul_le hk
  generalize (ofNat s).div (powerOfTen k) = y at *
  generalize value (ofNat s).magnitude / value (powerOfTen k).magnitude = q at *
  have hqpos : 0 < q := hquot.pos (by positivity)
  have hratio : ((1 : ℚ) + 1 / 2 ^ 53) ^ (1 + 1) ≤ 17 / 10 := by norm_num
  have hfinite : y.isFinite := by
    apply hround.isFinite_of_le
    calc q ≤ s / 10 ^ k * (1 + 1 / 2 ^ 53) ^ (1 + 1) := hquot.le
      _ ≤ 1 * (17 / 10) := by
        gcongr
        exact (div_le_one htpos).mpr hs'
      _ ≤ 10 ^ 308 := (by norm_num : (1 : ℚ) * (17 / 10) ≤ 10 ^ 1).trans
        (pow_le_pow_right₀ (by norm_num) (by norm_num))
  have hlow : (2 : ℚ) ^ (-1022 - (2 : ℕ) : ℤ) ≤ q := by
    have hge : 1 ≤ q * (17 / 10 * 10 ^ k) := by
      calc (1 : ℚ) ≤ s := hone
        _ = s / 10 ^ k * 10 ^ k := (div_mul_cancel₀ _ htpos.ne').symm
        _ ≤ q * (17 / 10) * 10 ^ k := by
          gcongr
          exact hquot.ge.trans (by gcongr)
        _ = q * (17 / 10 * 10 ^ k) := mul_assoc _ _ _
    exact le_of_mul_le_mul_right (hlimit.trans hge) (by positivity)
  exact ((hround.roundsTo hfinite).near (i := 2) (by omega) hlow).trans hquot

theorem exists_near_approximate (hs : 0 < s) (hs' : s < 2 ^ 64) (he : -616 ≤ e) (he' : e ≤ 308) :
    ∃ w, Rounds w (approximate s e) ∧ Near (if -308 ≤ e then 2 else 7) w (s * 10 ^ e) := by
  have hone : (1 : ℚ) ≤ s := by exact_mod_cast hs
  have hlarge := cast_le_of_lt hs'
  have hsig := near_of_one_le (rounds_ofNat s) hone hlarge
  have hsigpos : 0 < value (ofNat s).magnitude := hsig.pos (by linarith)
  unfold approximate
  -- Each case counts its roundings: the significand, the power, and a first quotient.
  split_ifs with hpos hsmall hsmall
  · have hten := near_powerOfTen (k := e.toNat) (by omega)
    refine ⟨_, rounds_mul _ _, ?_⟩
    rw [← zpow_natCast, Int.toNat_of_nonneg hpos] at hten
    exact hsig.mul hsigpos.le (by linarith) (value_nonneg _) (by positivity) hten
  · omega
  · have hk : e.natAbs ≤ 308 := by omega
    refine ⟨_, rounds_div _ (value_powerOfTen_pos hk), ?_⟩
    have hdiv := hsig.div hsigpos.le (by linarith) (value_powerOfTen_pos hk) (by positivity)
      (near_powerOfTen hk)
    rw [← zpow_natCast, Int.natCast_natAbs, abs_of_neg (by omega), zpow_neg, div_inv_eq_mul] at hdiv
    exact hdiv
  · have hk : (e + 308).natAbs ≤ 308 := by omega
    have hfirst := near_div_powerOfTen hs hlarge le_rfl
    refine ⟨_, rounds_div _ (value_powerOfTen_pos hk), ?_⟩
    have hdiv := hfirst.div (value_nonneg _) (by positivity) (value_powerOfTen_pos hk)
      (by positivity) (near_powerOfTen hk)
    have hexact : (s : ℚ) / 10 ^ 308 / 10 ^ (e + 308).natAbs = s * 10 ^ e := by
      rw [div_div, ← pow_add, ← zpow_natCast, div_eq_mul_inv, ← zpow_neg]
      congr 2
      omega
    rwa [hexact] at hdiv

/-- How many units in the last place scaling may be off. -/
def scalingError (e : ℤ) : ℕ := if -308 ≤ e then 2 else 8

/-- A significand that is scaled ends up close to what the decimal rounds to. -/
theorem exists_close_approximate (hs : 0 < s) (hs' : s < 2 ^ 64) (he : -616 ≤ e) (he' : e ≤ 308)
    (h : RoundsTo (s * 10 ^ e) m) :
    ∃ n, (approximate s e).magnitude = min n infiniteMagnitude ∧ n ≤ m + scalingError e ∧
      m ≤ n + scalingError e := by
  obtain ⟨w, ⟨n, hw, hmagnitude⟩, hnear⟩ := exists_near_approximate hs hs' he he'
  refine ⟨n, hmagnitude, hnear.le_add h hw ?_⟩
  unfold scalingError
  split_ifs <;> norm_num

theorem isNegative_approximate (s : ℕ) (e : ℤ) : (approximate s e).isNegative = false := by
  unfold approximate
  split_ifs <;>
    simp only [mul, div, powerOfTen, ofNat, isNegative_nearest, bne_self_eq_false]

theorem mul_inv_lt (ha : 0 < a) (hb : 0 < b) (h : 2 * (c * a) < b) :
    c * b⁻¹ < ((0 : ℕ) + 1 / 2) * a⁻¹ := by
  rw [← div_eq_mul_inv, ← div_eq_mul_inv, div_lt_div_iff₀ hb ha]
  push_cast
  linarith

theorem power_ge (hs : s < 2 ^ 64) (hm : 0 < m) (h : RoundsTo (s * 10 ^ e) m) : -616 ≤ e := by
  -- A word scaled by less rounds to zero.
  by_contra hlow
  have hword : (s : ℚ) ≤ 2 ^ 64 := by exact_mod_cast hs.le
  have hpos : (0 : ℚ) < 10 ^ e := zpow_pos (by norm_num) e
  obtain ⟨n, rfl⟩ : ∃ n, m = n + 1 := ⟨m - 1, by omega⟩
  have hzero : Scaled 0 0 (-1074) := ⟨by simp, le_rfl, by norm_num, .inl rfl⟩
  have hmiddle : middle 0 ≤ s * 10 ^ e :=
    (middle_strictMono.monotone (Nat.zero_le n)).trans (h.above n rfl).1
  have htwo : (2 : ℚ) ^ (-(1074 : ℕ) : ℤ) = (2 ^ 1074)⁻¹ := by rw [zpow_neg, zpow_natCast]
  rw [hzero.middle_eq (by norm_num)] at hmiddle
  have hmono : (10 : ℚ) ^ e ≤ (10 ^ 617)⁻¹ := by
    rw [← zpow_natCast, ← zpow_neg]
    gcongr
    · norm_num
    · push_cast
      omega
  have hnat : 2 * (2 ^ 64 * 2 ^ 1074) < 10 ^ 617 := by decide +kernel
  have hsmall : (2 : ℚ) ^ 64 * (10 ^ 617)⁻¹ < ((0 : ℕ) + 1 / 2) * (2 ^ 1074)⁻¹ :=
    mul_inv_lt (by positivity) (by positivity) (by exact_mod_cast hnat)
  rw [← htwo] at hsmall
  have hle : (s * 10 ^ e : ℚ) ≤ 2 ^ 64 * (10 ^ 617)⁻¹ :=
    mul_le_mul hword hmono hpos.le (by positivity)
  exact absurd (hmiddle.trans hle) (not_le.mpr hsmall)

theorem power_le (hs : 0 < s) (hm : m < infiniteMagnitude) (h : RoundsTo (s * 10 ^ e) m) :
    e ≤ 308 := by
  -- The number would be past the greatest finite one.
  by_contra hhigh
  have hone : (1 : ℚ) ≤ s := by exact_mod_cast hs
  have hpos : (0 : ℚ) < 10 ^ e := zpow_pos (by norm_num) e
  have hinfinite : Scaled infiniteMagnitude (2 ^ 52) 972 :=
    ⟨by decide, by norm_num, by norm_num, .inr le_rfl⟩
  have hpow : (2 ^ 52 : ℕ) * (2 : ℚ) ^ (972 : ℤ) ≤ 10 ^ (309 : ℤ) := by
    have hnat : 2 ^ 52 * 2 ^ 972 ≤ 10 ^ 309 := by decide +kernel
    exact_mod_cast hnat
  have hmono : (10 : ℚ) ^ (309 : ℤ) ≤ 10 ^ e := by
    gcongr
    · norm_num
    · omega
  have hlarge : (s * 10 ^ e : ℚ) < s * 10 ^ e := by
    calc (s * 10 ^ e : ℚ) ≤ middle m := h.below.1
      _ < value (m + 1) := middle_lt_value m
      _ ≤ value infiniteMagnitude := value_strictMono.monotone hm
      _ = (2 ^ 52 : ℕ) * 2 ^ (972 : ℤ) := hinfinite.value_eq
      _ ≤ 10 ^ e := hpow.trans hmono
      _ ≤ s * 10 ^ e := le_mul_of_one_le_left hpos.le hone
  exact hlarge.false

/-! ## Nothing lost -/

theorem Rounds.value_eq (h : Rounds q x) (hq : q ≤ 10 ^ 308) (hk : k ≤ 2 ^ 53)
    (heq : q = k * 2 ^ j) : value x.magnitude = q := by
  obtain ⟨m, hm⟩ := exists_value (e := j) hk (by omega)
  rw [zpow_natCast, ← heq] at hm
  have hround := roundsTo_value m
  rw [hm] at hround
  rw [(h.roundsTo (h.isFinite_of_le hq)).unique hround, hm]

theorem value_powerOfTen (hk : k ≤ 22) : value (powerOfTen k).magnitude = 10 ^ k := by
  refine (rounds_powerOfTen k).value_eq (pow_le_pow_right₀ (by norm_num) (by omega))
    (k := 5 ^ k) (j := k) ?_ ?_
  · exact (Nat.pow_le_pow_right (by decide) hk).trans (by norm_num)
  · push_cast
    rw [← mul_pow]
    norm_num

theorem rounds_approximate (hs : s = k * 2 ^ j) (hk : k ≤ 2 ^ 53) (hs' : s < 2 ^ 64)
    (he : e.natAbs ≤ 22) : Rounds (s * 10 ^ e) (approximate s e) := by
  have hlarge := cast_le_of_lt hs'
  have hsig : value (ofNat s).magnitude = s :=
    (rounds_ofNat s).value_eq hlarge hk (by rw [hs]; push_cast; rfl)
  -- Significand and power are exact, so the last step alone rounds.
  unfold approximate
  split_ifs with hpos hsmall
  · have hmul := rounds_mul (ofNat s) (powerOfTen e.toNat)
    rwa [hsig, value_powerOfTen (by omega), ← zpow_natCast, Int.toNat_of_nonneg hpos] at hmul
  · have hdiv := rounds_div (ofNat s) (value_powerOfTen_pos (k := e.natAbs) (by omega))
    rwa [hsig, value_powerOfTen he, ← zpow_natCast, Int.natCast_natAbs, abs_of_neg (by omega),
      zpow_neg, div_inv_eq_mul] at hdiv
  · omega

end DocAnnotations.Binary64
