import DocAnnotations.Proofs.Json.Numerals
import DocAnnotations.Proofs.Number.Shortest

/-! # Digits laid out as a numeral -/

namespace DocAnnotations.Json

open Binary64 (RoundsTo dropTrailingZeros)
open Decimal (isDigit digitValue natOfDigits)

/-! ## Digits and zeros -/

theorem natOfDigits_append_zeros (ds : List Char) (k : ℕ) :
    natOfDigits (ds ++ List.replicate k '0') = natOfDigits ds * 10 ^ k := by
  induction k with
  | zero => simp
  | succ k ih =>
    have hzero : digitValue '0' = 0 := rfl
    rw [List.replicate_succ', ← List.append_assoc, natOfDigits_concat, ih, hzero, pow_succ]
    ring

theorem natOfDigits_zeros_append (k : ℕ) (ds : List Char) :
    natOfDigits (List.replicate k '0' ++ ds) = natOfDigits ds := by
  induction k with
  | zero => simp
  | succ k ih => simpa [List.replicate_succ, natOfDigits, digitValue] using ih

theorem cast_mul_pow_mul_zpow (n k : ℕ) (e : ℤ) :
    ((n * 10 ^ k : ℕ) : ℚ) * 10 ^ e = n * 10 ^ (k + e) := by
  push_cast
  rw [mul_assoc, ← zpow_natCast, ← zpow_add₀ (by norm_num)]

theorem exists_dropTrailingZeros (ds : List Char) :
    ∃ k, ds = dropTrailingZeros ds ++ List.replicate k '0' := by
  obtain ⟨zeros, hzeros⟩ : ∃ zeros, zeros = ds.reverse.takeWhile (· == '0') := ⟨_, rfl⟩
  have hall : ∀ c ∈ zeros.reverse, c = '0' := by
    intro c hc
    rw [hzeros, List.mem_reverse] at hc
    simpa using List.mem_takeWhile_imp hc
  refine ⟨zeros.reverse.length, ?_⟩
  rw [← List.eq_replicate_of_mem hall, dropTrailingZeros, ← List.reverse_append, hzeros,
    List.takeWhile_append_dropWhile, List.reverse_reverse]

/-! ## Shortest digits -/

/-- Digits of a positive number as a numeral can show them. -/
structure Printable (d : Digits) : Prop where
  digits : IsDigits d.digits
  head : d.digits.head? ≠ some '0'
  short : d.digits.length ≤ 18
  pos : 0 < natOfDigits d.digits
  le : natOfDigits d.digits ≤ 10 ^ 17

theorem Printable.length_pos {d : Digits} (h : Printable d) : 0 < d.digits.length :=
  List.length_pos_iff.mpr h.digits.1

def decimalValue (d : Digits) : ℚ := natOfDigits d.digits * 10 ^ (d.point - d.digits.length)

theorem printable_shortest {x : Binary64} (hm : 0 < x.magnitude) (hx : x.isFinite) :
    Printable x.shortest ∧ RoundsTo (decimalValue x.shortest) x.magnitude := by
  obtain ⟨c, s, hround, hpos, hle, hshortest⟩ := Binary64.exists_shortest hm hx
  obtain ⟨k, hk⟩ := exists_dropTrailingZeros (Nat.toDigits 10 c)
  have hc : natOfDigits (dropTrailingZeros (Nat.toDigits 10 c)) * 10 ^ k = c := by
    rw [← natOfDigits_append_zeros, ← hk, natOfDigits_toDigits]
  have hlength : (Nat.toDigits 10 c).length ≤ 18 :=
    (Nat.length_toDigits_le_iff (by decide) (by decide)).mpr (by omega)
  have hdigits := isDigit_of_mem_toDigits c
  have hhead := toDigits_head_ne_zero c hpos
  rw [hshortest, decimalValue]
  generalize dropTrailingZeros (Nat.toDigits 10 c) = ds at *
  generalize Nat.toDigits 10 c = all at *
  subst hk
  have hds : ds ≠ [] := by
    rintro rfl
    simp [natOfDigits] at hc
    omega
  refine ⟨⟨⟨hds, fun d hd => hdigits d (by simp [hd])⟩, ?_, ?_, ?_, ?_⟩, ?_⟩
  · rwa [List.head?_append_of_ne_nil _ hds] at hhead
  · simp at hlength ⊢
    omega
  · exact Nat.pos_of_mul_pos_right (hc ▸ hpos)
  · calc natOfDigits ds ≤ natOfDigits ds * 10 ^ k := Nat.le_mul_of_pos_right _ (by positivity)
      _ ≤ 10 ^ 17 := hc ▸ hle
  · have hpower : (((ds ++ List.replicate k '0').length : ℤ) + s - ds.length) = k + s := by
      rw [List.length_append, List.length_replicate]
      omega
    rwa [hpower, ← cast_mul_pow_mul_zpow, hc]

/-! ## The numeral that is written -/

/-- The digits of a numeral without its point. -/
def Numeral.significand (n : Numeral) : ℕ := natOfDigits (n.whole ++ n.fraction.getD [])

/-- The power of ten that the significand stands in front of. -/
def Numeral.power (n : Numeral) : ℤ :=
  (match n.exponent with
    | none => 0
    | some (negative, ds) => if negative then -(natOfDigits ds : ℤ) else natOfDigits ds) -
  (n.fraction.getD []).length

/-- The parts of the text that digits are laid out as. -/
def numeralOf (negative : Bool) (d : Digits) : Numeral :=
  if -5 < d.point ∧ d.point ≤ 16 then
    if d.point ≤ 0 then
      ⟨negative, ['0'], some (List.replicate (-d.point).toNat '0' ++ d.digits), none⟩
    else if d.point < d.digits.length then
      ⟨negative, d.digits.take d.point.toNat, some (d.digits.drop d.point.toNat), none⟩
    else
      ⟨negative, d.digits ++ List.replicate (d.point.toNat - d.digits.length) '0', some ['0'], none⟩
  else
    ⟨negative, d.digits.take 1, if d.digits.length = 1 then none else some (d.digits.drop 1),
      some (d.point - 1 < 0, Nat.toDigits 10 (d.point - 1).natAbs)⟩

variable {d : Digits} {sign : List Char} {negative : Bool}

theorem isDigits_zeros_append (k : ℕ) {ds : List Char} (h : IsDigits ds) :
    IsDigits (List.replicate k '0' ++ ds) := by
  refine ⟨by simp [h.1], fun c hc => ?_⟩
  rcases List.mem_append.mp hc with hc | hc
  · obtain rfl := List.eq_of_mem_replicate hc
    rfl
  · exact h.2 c hc

theorem Printable.isWhole_append (h : Printable d) {ds : List Char} (hds : ds <+: d.digits)
    (hne : ds ≠ []) (k : ℕ) : IsWhole (ds ++ List.replicate k '0') := by
  obtain ⟨rest, hrest⟩ := hds
  refine ⟨⟨by simp [hne], fun c hc => ?_⟩, .inr ?_⟩
  · rcases List.mem_append.mp hc with hc | hc
    · exact h.digits.2 c (by simp [← hrest, hc])
    · obtain rfl := List.eq_of_mem_replicate hc
      rfl
  · have hhead := h.head
    rw [← hrest, List.head?_append_of_ne_nil _ hne] at hhead
    rwa [List.head?_append_of_ne_nil _ hne]

theorem spellsPower_scientific (e : ℤ) :
    SpellsPower ('e' :: (if e < 0 then '-' else '+') :: Nat.toDigits 10 e.natAbs)
      (some (decide (e < 0), Nat.toDigits 10 e.natAbs)) := by
  have hdigits := (isWhole_toDigits e.natAbs).1
  by_cases he : e < 0
  · simpa [he] using SpellsPower.present (.inl rfl) .minus hdigits
  · simpa [he] using SpellsPower.present (.inl rfl) .plus hdigits

theorem Printable.spells (h : Printable d) (hsign : SpellsSign sign negative)
    (hplus : sign ≠ ['+']) : SpellsNumeral (sign ++ layOut d) (numeralOf negative d) := by
  have hlen := h.length_pos
  unfold layOut numeralOf
  split_ifs with hnear hlong hsmall hpoint hsmall hpoint hone
  · omega
  · omega
  · -- Zeros up to the point, and a zero behind it.
    have hwhole := h.isWhole_append (List.prefix_refl _) h.digits.1
      (d.point.toNat - d.digits.length)
    have hzero : IsDigits ['0'] := ⟨by simp, by simp [isDigit]⟩
    rw [Digits.positional, if_neg hsmall, if_neg hpoint]
    simpa using SpellsNumeral.mk hsign hplus hwhole (.present hzero) .absent
  · -- Zeros between the point and the digits.
    have hzero : IsWhole ['0'] := ⟨⟨by simp, by simp [isDigit]⟩, .inl rfl⟩
    have hfraction := isDigits_zeros_append (-d.point).toNat h.digits
    rw [Digits.positional, if_pos hsmall]
    simpa using SpellsNumeral.mk hsign hplus hzero (.present hfraction) .absent
  · -- The point among the digits.
    have hne : d.digits.take d.point.toNat ≠ [] := by
      rw [← List.length_pos_iff, List.length_take]
      omega
    have hwhole := h.isWhole_append (List.take_prefix _ _) hne 0
    have hfraction : IsDigits (d.digits.drop d.point.toNat) := by
      refine ⟨?_, fun c hc => h.digits.2 c (List.mem_of_mem_drop hc)⟩
      rw [← List.length_pos_iff, List.length_drop]
      omega
    rw [Digits.positional, if_neg hsmall, if_pos hpoint]
    simpa using SpellsNumeral.mk hsign hplus hwhole (.present hfraction) .absent
  · omega
  · -- One digit and an exponent.
    obtain ⟨c, hc⟩ := List.length_eq_one_iff.mp hone
    have hwhole := h.isWhole_append (List.take_prefix 1 _) (by simp [hc]) 0
    rw [List.replicate_zero, List.append_nil] at hwhole
    have hmk := SpellsNumeral.mk hsign hplus hwhole .absent (spellsPower_scientific (d.point - 1))
    simpa [scientific, hc] using hmk
  · obtain ⟨c, rest, hc⟩ := List.exists_cons_of_ne_nil h.digits.1
    have hrest : rest ≠ [] := by
      rintro rfl
      simp [hc] at hone
    have hwhole := h.isWhole_append (List.take_prefix 1 _) (by simp [hc]) 0
    rw [List.replicate_zero, List.append_nil] at hwhole
    have hfraction : IsDigits (d.digits.drop 1) :=
      ⟨by simpa [hc] using hrest, fun x hx => h.digits.2 x (List.mem_of_mem_drop hx)⟩
    have hmk := SpellsNumeral.mk hsign hplus hwhole (.present hfraction)
      (spellsPower_scientific (d.point - 1))
    obtain ⟨c', rest, rfl⟩ := List.exists_cons_of_ne_nil hrest
    simpa [scientific, hc] using hmk

theorem Printable.lt (h : Printable d) : natOfDigits d.digits < 10 ^ d.digits.length := by
  have hlen := h.length_pos
  rw [← Nat.length_toDigits_le_iff (by decide) hlen, toDigits_natOfDigits ⟨h.digits, .inr h.head⟩]

theorem signed_toDigits (e : ℤ) :
    (if decide (e < 0) = true then -(natOfDigits (Nat.toDigits 10 e.natAbs) : ℤ)
      else natOfDigits (Nat.toDigits 10 e.natAbs)) = e := by
  rw [natOfDigits_toDigits]
  split_ifs with he <;> simp at he <;> omega

theorem Printable.numeralOf_spec (h : Printable d) (negative : Bool) :
    0 < (numeralOf negative d).significand ∧ (numeralOf negative d).significand ≤ 10 ^ 17 ∧
      ((numeralOf negative d).significand : ℚ) * 10 ^ (numeralOf negative d).power =
        decimalValue d := by
  have hlen := h.length_pos
  have hpos := h.pos
  have hle := h.le
  have hsplit : ∀ k, d.digits.take k ++ d.digits.drop k = d.digits := by simp
  unfold numeralOf
  split_ifs with hnear hsmall hpoint hone
  · have hsig : natOfDigits (['0'] ++ (List.replicate (-d.point).toNat '0' ++ d.digits)) =
        natOfDigits d.digits := by
      have hzeros := natOfDigits_zeros_append (1 + (-d.point).toNat) d.digits
      rwa [List.replicate_add, List.append_assoc] at hzeros
    simp only [Numeral.significand, Numeral.power, Option.getD_some, hsig, decimalValue]
    refine ⟨hpos, hle, ?_⟩
    congr 2
    simp
    omega
  · simp only [Numeral.significand, Numeral.power, Option.getD_some, hsplit, decimalValue]
    refine ⟨hpos, hle, ?_⟩
    congr 2
    simp
    omega
  · -- The zeros up to the point and the one behind it belong to the significand.
    obtain ⟨k, hk⟩ : ∃ k : ℕ, d.point = d.digits.length + k :=
      ⟨(d.point - d.digits.length).toNat, by omega⟩
    have hzeros : d.point.toNat - d.digits.length = k := by omega
    have hsig : natOfDigits (d.digits ++ List.replicate k '0' ++ ['0']) =
        natOfDigits d.digits * 10 ^ (k + 1) := by
      rw [← natOfDigits_append_zeros, List.replicate_succ', List.append_assoc]
    simp only [Numeral.significand, Numeral.power, Option.getD_some, hzeros, hsig, decimalValue]
    refine ⟨by positivity, ?_, ?_⟩
    · calc natOfDigits d.digits * 10 ^ (k + 1)
          ≤ 10 ^ d.digits.length * 10 ^ (k + 1) := Nat.mul_le_mul_right _ h.lt.le
        _ = 10 ^ (d.digits.length + (k + 1)) := (pow_add _ _ _).symm
        _ ≤ 10 ^ 17 := Nat.pow_le_pow_right (by decide) (by omega)
    · rw [cast_mul_pow_mul_zpow, hk]
      congr 2
      simp
  · have hsig : d.digits.take 1 = d.digits := List.take_of_length_le hone.le
    simp only [Numeral.significand, Numeral.power, Option.getD_none, List.append_nil, hsig,
      decimalValue, signed_toDigits]
    refine ⟨hpos, hle, ?_⟩
    congr 2
    simp [hone]
  · simp only [Numeral.significand, Numeral.power, Option.getD_some, hsplit, decimalValue,
      signed_toDigits, List.length_drop]
    refine ⟨hpos, hle, ?_⟩
    congr 2
    omega

theorem Printable.exponent_le (h : Printable d) {sign : Bool} {ds : List Char}
    (hexponent : (numeralOf negative d).exponent = some (sign, ds)) :
    natOfDigits ds ≤ (numeralOf negative d).power.natAbs + 18 := by
  have hlen := h.short
  have hlen' := h.length_pos
  unfold numeralOf at hexponent ⊢
  split_ifs at hexponent ⊢ with hnear hsmall hpoint hone
  · simp only [Option.some.injEq, Prod.mk.injEq] at hexponent
    simp only [Numeral.power, signed_toDigits, Option.getD_none, List.length_nil]
    rw [← hexponent.2, natOfDigits_toDigits]
    omega
  · simp only [Option.some.injEq, Prod.mk.injEq] at hexponent
    simp only [Numeral.power, signed_toDigits, Option.getD_some, List.length_drop]
    rw [← hexponent.2, natOfDigits_toDigits]
    omega

theorem integer?_numeralOf (negative : Bool) (d : Digits) :
    (numeralOf negative d).integer? = none := by
  unfold numeralOf
  split_ifs <;> simp [Numeral.integer?]

end DocAnnotations.Json
