import DocAnnotations.Proofs.Coercion.Scalars
import DocAnnotations.Proofs.Json.Floats

/-!
# Written floats are read as floats

What is read need not be the same float: the digits and the power of ten are
rounded before they are put together.
-/

namespace DocAnnotations.Coercion

open Binary64 (approximate nearest scalingError)
open Json (Numeral SpellsNumeral)

/-- What a float is written as, and what is read for it. -/
structure ReadsBack (x : Binary64) (n : Numeral) (y : Binary64) : Prop where
  spells : SpellsNumeral (Json.writeFloat x) n
  nearest_eq :
    nearest n.negative (n.significand * 10 ^ n.power.toNat) (10 ^ (-n.power).toNat) = x
  coerce_eq : coerce (some (Json.write (.float x))) = .float y
  isFinite : y.isFinite
  isNegative_eq : y.isNegative = x.isNegative
  magnitude_eq : y.magnitude = (approximate n.significand n.power).magnitude
  close : y.magnitude ≤ x.magnitude + scalingError n.power ∧
    x.magnitude ≤ y.magnitude + scalingError n.power
  exact : ∀ k j, n.significand = k * 2 ^ j → k ≤ 2 ^ 53 → n.power.natAbs ≤ 22 → y = x

variable {x : Binary64}

theorem coerce_write_float (hx : x.isFinite) :
    coerce (some (Json.write (.float x))) = .float (Json.readBack x) := by
  have hspells :
      Json.Spells Json.maxDepth (Json.writeFloat x) (.value (.float (Json.readBack x))) :=
    .number (Json.spells_writeFloat hx) (Json.value?_printed hx)
  rw [coerce, Json.write, String.toList_ofList, Json.writeValue]
  exact ofChars_of_read ((Json.readChars_eq_some_iff _ _).mpr hspells.padded) (by simp)

theorem nearest_printed (hx : x.isFinite) :
    nearest x.isNegative ((Json.printed x).significand * 10 ^ (Json.printed x).power.toNat)
      (10 ^ (-(Json.printed x).power).toNat) = x := by
  have hround := (Json.identifies_printed hx).roundsTo
  generalize Json.printed x = n at *
  refine Binary64.nearest_eq hx (by positivity) ?_
  have hten := Binary64.zpow_mul_toNat (b := 10) (by norm_num) n.power
  have hvalue : ((n.significand * 10 ^ n.power.toNat : ℕ) : ℚ) / (10 ^ (-n.power).toNat : ℕ) =
      n.significand * 10 ^ n.power := by
    rw [div_eq_iff (by positivity)]
    push_cast
    rw [← hten]
    ring
  rwa [hvalue]

/-- Every finite float is written as a numeral to which it is the closest float, and what is read
for it is a finite float of its sign, never a text: the digits, rounded, and scaled by a rounded
power of ten. That is the same float where the digits fit its significand and the power is small,
and otherwise two units in the last place away at most, or eight after two divisions. -/
theorem readsBack_float (x : Binary64) (hx : x.isFinite) : ∃ n y, ReadsBack x n y := by
  have hfinite := Json.isFinite_scaledBack hx
  have hmagnitude := Json.magnitude_readBack x
  have hsign := Json.isNegative_readBack x
  refine ⟨Json.printed x, Json.readBack x, ?_⟩
  constructor
  case spells => exact Json.spells_writeFloat hx
  case nearest_eq => rw [Json.negative_printed, nearest_printed hx]
  case coerce_eq => exact coerce_write_float hx
  case isFinite => rwa [Binary64.isFinite_iff, hmagnitude, ← Binary64.isFinite_iff]
  case isNegative_eq => exact hsign
  case magnitude_eq => exact hmagnitude
  case close =>
    obtain ⟨n, hmin, hle, hge⟩ := Json.exists_close_scaledBack hx
    rw [Binary64.isFinite_iff] at hfinite
    rw [hmagnitude]
    omega
  case exact =>
    intro k j hk hbits hpower
    obtain ⟨hround, hword, -, -, -⟩ := Json.identifies_printed hx
    have hrounds := Binary64.rounds_approximate hk hbits hword hpower
    refine Binary64.eq_of_magnitude hsign (hmagnitude.trans ?_)
    exact (hrounds.roundsTo hfinite).unique hround

theorem readsBack_float_tenth : ∃ n y, ReadsBack ⟨0x3fb999999999999a⟩ n y :=
  readsBack_float ⟨0x3fb999999999999a⟩ (by decide)

/-- The seventeen digits of this number do not fit the significand and are read as an even number
below it. -/
theorem coerce_write_float_ne :
    Binary64.isFinite ⟨0x433c6bf526340004⟩ ∧
    Json.write (.float ⟨0x433c6bf526340004⟩) = "8000000000000004.0" ∧
    coerce (some (Json.write (.float ⟨0x433c6bf526340004⟩))) ≠ .float ⟨0x433c6bf526340004⟩ := by
  refine ⟨by decide, ?_, ?_⟩
  · have htext : Json.writeFloat ⟨0x433c6bf526340004⟩ = "8000000000000004.0".toList := by
      decide +kernel
    rw [Json.write, Json.writeValue, htext, String.ofList_toList]
  · have hne : Json.readBack ⟨0x433c6bf526340004⟩ ≠ ⟨0x433c6bf526340004⟩ := by decide +kernel
    rw [coerce_write_float (by decide)]
    simpa using hne

end DocAnnotations.Coercion
