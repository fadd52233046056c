import DocAnnotations.Proofs.Json.Layout
import DocAnnotations.Proofs.Number.Accuracy

/-! # Written floats -/

namespace DocAnnotations.Json

open Binary64 (RoundsTo approximate infiniteMagnitude)
open Decimal (isDigit digitValue natOfDigits)

/-! ## Reading a numeral -/

theorem le_foldl_digits (s : ℕ) (ds : List Char) :
    s ≤ ds.foldl (fun n d => 10 * n + digitValue d) s := by
  induction ds generalizing s with
  | nil => exact le_rfl
  | cons d ds ih => exact le_trans (by omega) (ih (10 * s + digitValue d))

theorem accumulate_eq (s : ℕ) (ds : List Char)
    (h : ds.foldl (fun n d => 10 * n + digitValue d) s < 2 ^ 64) :
    accumulate s ds = (ds.foldl (fun n d => 10 * n + digitValue d) s, []) := by
  induction ds generalizing s with
  | nil => rfl
  | cons d ds ih =>
    -- Digits only make the number greater, so it has fitted a word all the time.
    have hnext : 10 * s + digitValue d < Nat.pow 2 64 := (le_foldl_digits _ ds).trans_lt h
    rw [accumulate]
    simp only [if_pos hnext]
    exact ih _ h

theorem magnitude?_eq (n : Numeral) (hs : n.significand < 2 ^ 64)
    (he : ∀ negative ds, n.exponent = some (negative, ds) → natOfDigits ds ≤ 2147483647) :
    n.magnitude? = scaled n.significand n.power := by
  obtain ⟨negative, whole, fraction, exponent⟩ := n
  simp only [Numeral.significand, Numeral.power, natOfDigits, List.foldl_append] at hs he ⊢
  have hwhole := accumulate_eq 0 whole ((le_foldl_digits _ _).trans_lt hs)
  have hfraction := accumulate_eq _ (fraction.getD []) hs
  have hexponent : ∀ negative ds, exponent = some (negative, ds) →
      ¬ (2147483647 : ℤ) < ds.foldl (fun n d => 10 * n + digitValue d) 0 := by
    intro negative ds h
    have := he negative ds h
    omega
  unfold Numeral.magnitude?
  simp only [hwhole, natOfDigits]
  cases fraction with
  | none =>
    rcases exponent with _ | ⟨negative', ds⟩
    · simp
    · cases negative' <;> simp [hexponent _ ds rfl]
  | some fraction =>
    simp only [Option.getD_some] at hfraction ⊢
    rcases exponent with _ | ⟨negative', ds⟩
    · simp [hfraction]
    · cases negative' with
      | false => simp [hfraction, hexponent _ ds rfl, neg_add_eq_sub]
      | true => simp [hfraction, hexponent _ ds rfl, sub_eq_add_neg, add_comm]

theorem scaled_eq {s : ℕ} {e : ℤ} (hs : 0 < s ∨ -308 ≤ e) (hs' : s < 2 ^ 64) (he : -616 ≤ e)
    (he' : e ≤ 308) (hfinite : (approximate s e).isFinite) :
    scaled s e = some (approximate s e) := by
  -- At most two steps are taken, and none of them overflows.
  have hclamp : clampExponent e = e := by
    unfold clampExponent
    omega
  rw [scaled, hclamp, scale]
  unfold approximate at hfinite ⊢
  rcases le_or_gt 0 e with hpos | hneg
  · rw [if_pos hpos] at hfinite
    rw [if_pos (by omega), if_pos hpos, if_pos hpos]
    have hnot : ¬ ((Binary64.ofNat s).mul (.powerOfTen e.toNat)).isInfinite := by
      rw [Binary64.isFinite_iff] at hfinite
      simp [Binary64.isInfinite, hfinite.ne]
    simp [hnot]
  have hnot : ¬ 0 ≤ e := by omega
  rcases le_or_gt (-308) e with hnear | hfar
  · rw [if_pos (by omega), if_neg hnot, if_neg hnot, if_pos hnear]
  · have hzero : ¬ (Binary64.ofNat s).isZero := by
      have := Binary64.magnitude_ofNat_pos (hs.resolve_right (by omega)) hs'
      simp [Binary64.isZero]
      omega
    rw [if_neg (by omega), if_neg hzero, if_neg hnot, if_neg hnot, if_neg (by omega), scale,
      if_pos (by omega), if_neg (by omega)]

/-! ## Reading what is written -/

/-- The numeral that is written for a float. -/
def printed (x : Binary64) : Numeral :=
  if x.isZero then ⟨x.isNegative, ['0'], some ['0'], none⟩ else numeralOf x.isNegative x.shortest

variable {x : Binary64}

theorem magnitude_pos_of_not_isZero (h : ¬ x.isZero) : 0 < x.magnitude := by
  simpa [Binary64.isZero, Nat.pos_iff_ne_zero] using h

theorem spells_writeFloat (hx : x.isFinite) : SpellsNumeral (writeFloat x) (printed x) := by
  obtain ⟨sign, hsign, hplus, htext⟩ : ∃ sign, SpellsSign sign x.isNegative ∧ sign ≠ ['+'] ∧
      ∀ body, (if x.isNegative then '-' :: body else body) = sign ++ body := by
    cases hneg : x.isNegative with
    | false => exact ⟨[], .absent, by simp, by simp⟩
    | true => exact ⟨['-'], .minus, by simp, by simp⟩
  rw [writeFloat, if_neg (by simp [hx])]
  simp only [htext]
  unfold printed
  split_ifs with hzero
  · have hdigits : IsDigits ['0'] := ⟨by simp, by simp [isDigit]⟩
    exact SpellsNumeral.mk hsign hplus ⟨hdigits, .inl rfl⟩ (.present hdigits) .absent
  · exact (printable_shortest (magnitude_pos_of_not_isZero hzero) hx).1.spells hsign hplus

theorem negative_printed (x : Binary64) : (printed x).negative = x.isNegative := by
  unfold printed numeralOf
  split_ifs <;> rfl

/-- The numeral stands for a decimal that rounds to the float, and the reader has room for it. -/
structure Identifies (n : Numeral) (x : Binary64) : Prop where
  roundsTo : RoundsTo (n.significand * 10 ^ n.power) x.magnitude
  significand_lt : n.significand < 2 ^ 64
  power_ge : -616 ≤ n.power
  power_le : n.power ≤ 308
  pos_or_zero : 0 < n.significand ∨ x.magnitude = 0 ∧ n.significand = 0 ∧ n.power = -1

theorem identifies_printed (hx : x.isFinite) : Identifies (printed x) x := by
  unfold printed
  split_ifs with hzero
  · have hmagnitude : x.magnitude = 0 := by simpa [Binary64.isZero] using hzero
    have hround := Binary64.roundsTo_value 0
    rw [Binary64.value_zero] at hround
    have hsig : natOfDigits ['0', '0'] = 0 := rfl
    constructor <;> simp [Numeral.significand, Numeral.power, hsig, hround, hmagnitude]
  · have hm := magnitude_pos_of_not_isZero hzero
    obtain ⟨hprintable, hround⟩ := printable_shortest hm hx
    obtain ⟨hpos, hle, hvalue⟩ := hprintable.numeralOf_spec x.isNegative
    rw [← hvalue] at hround
    generalize numeralOf x.isNegative x.shortest = n at *
    have hword : n.significand < 2 ^ 64 := hle.trans_lt (by norm_num)
    have hlow := Binary64.power_ge hword hm hround
    have hhigh := Binary64.power_le hpos ((Binary64.isFinite_iff x).mp hx) hround
    exact ⟨hround, hword, hlow, hhigh, .inl hpos⟩

theorem exponent_printed_le (hx : x.isFinite) {sign : Bool} {ds : List Char}
    (h : (printed x).exponent = some (sign, ds)) : natOfDigits ds ≤ 2147483647 := by
  have hlow := (identifies_printed hx).power_ge
  have hhigh := (identifies_printed hx).power_le
  unfold printed at h hlow hhigh
  split_ifs at h hlow hhigh with hzero
  have hprintable := (printable_shortest (magnitude_pos_of_not_isZero hzero) hx).1
  have := hprintable.exponent_le h
  omega

theorem integer?_printed (x : Binary64) : (printed x).integer? = none := by
  unfold printed
  split_ifs
  · simp [Numeral.integer?]
  · exact integer?_numeralOf _ _

/-- The float without its sign that the written numeral is scaled to. -/
def scaledBack (x : Binary64) : Binary64 := approximate (printed x).significand (printed x).power

theorem isFinite_scaledBack_greatest : ∀ negative, ∀ i < 8,
    (scaledBack (.ofMagnitude negative (infiniteMagnitude - 1 - i))).isFinite = true := by
  decide +kernel

theorem exists_close_scaledBack (hx : x.isFinite) :
    ∃ n, (scaledBack x).magnitude = min n infiniteMagnitude ∧
      n ≤ x.magnitude + Binary64.scalingError (printed x).power ∧
      x.magnitude ≤ n + Binary64.scalingError (printed x).power := by
  obtain ⟨hround, hword, hlow, hhigh, hpos | ⟨hmagnitude, hsig, hpower⟩⟩ := identifies_printed hx
  · exact Binary64.exists_close_approximate hpos hword hlow hhigh hround
  · rw [scaledBack, hsig, hpower, hmagnitude]
    exact ⟨0, by decide +kernel, by omega, by omega⟩

theorem isFinite_scaledBack (hx : x.isFinite) : (scaledBack x).isFinite := by
  have hfinite := (Binary64.isFinite_iff x).mp hx
  obtain ⟨n, hmagnitude, hle, -⟩ := exists_close_scaledBack hx
  have herror : Binary64.scalingError (printed x).power ≤ 8 := by
    unfold Binary64.scalingError
    split_ifs <;> omega
  by_cases hfar : x.magnitude + 8 < infiniteMagnitude
  · rw [Binary64.isFinite_iff]
    omega
  · -- The few greatest floats are left, for which the result is computed.
    obtain ⟨i, hi, heq⟩ : ∃ i, i < 8 ∧ x.magnitude = infiniteMagnitude - 1 - i :=
      ⟨infiniteMagnitude - 1 - x.magnitude, by omega, by omega⟩
    rw [← Binary64.ofMagnitude_self x, heq]
    exact isFinite_scaledBack_greatest _ i hi

/-- The float that is read for what is written. -/
def readBack (x : Binary64) : Binary64 := if x.isNegative then (scaledBack x).neg else scaledBack x

theorem magnitude_readBack (x : Binary64) : (readBack x).magnitude = (scaledBack x).magnitude := by
  unfold readBack
  split_ifs
  · exact Binary64.magnitude_neg _
  · rfl

theorem isNegative_readBack (x : Binary64) : (readBack x).isNegative = x.isNegative := by
  have hpositive := Binary64.isNegative_approximate (printed x).significand (printed x).power
  unfold readBack scaledBack
  split_ifs with hneg
  · rw [Binary64.isNegative_neg, hpositive, hneg, Bool.not_false]
  · rw [hpositive, Bool.eq_false_of_not_eq_true hneg]

theorem value?_printed (hx : x.isFinite) : (printed x).value? = some (.float (readBack x)) := by
  obtain ⟨-, hword, hlow, hhigh, hpos⟩ := identifies_printed hx
  have hmagnitude : (printed x).magnitude? = some (scaledBack x) := by
    rw [magnitude?_eq _ hword fun _ _ => exponent_printed_le hx]
    exact scaled_eq (by omega) hword hlow hhigh (isFinite_scaledBack hx)
  rw [Numeral.value?, integer?_printed]
  simp [hmagnitude, negative_printed, readBack]

end DocAnnotations.Json
