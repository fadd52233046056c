import DocAnnotations.Number.Binary64
import Mathlib.Algebra.Order.Field.Basic
import Mathlib.Algebra.Order.Field.Power
import Mathlib.Algebra.Order.Field.Rat
import Mathlib.Algebra.Ring.Parity
import Mathlib.Order.Monotone.Basic
import Mathlib.Tactic.FieldSimp
import Mathlib.Tactic.Linarith
import Mathlib.Tactic.NormNum
import Mathlib.Tactic.Positivity
import Mathlib.Tactic.Ring
import Mathlib.Tactic.SplitIfs

/-!
# Magnitudes as numbers

Which of the numbers that magnitudes stand for a positive number rounds to: the
one whose neighbours are no closer, the even one of two.
-/

namespace DocAnnotations.Binary64

/-! ## Significand and exponent -/

/-- The number that a magnitude stands for, as if there were no largest one. -/
def value (m : ℕ) : ℚ :=
  if m < 2 ^ 52 then m * 2 ^ (-1074 : ℤ)
  else (m % 2 ^ 52 + 2 ^ 52 : ℕ) * 2 ^ ((m / 2 ^ 52 : ℕ) - 1075 : ℤ)

/-- The magnitude stands for `k * 2 ^ e`. The greatest significand is also the least one of the
next exponent. -/
structure Scaled (m k : ℕ) (e : ℤ) : Prop where
  eq : m = (e + 1074).toNat * 2 ^ 52 + k
  least : -1074 ≤ e
  le : k ≤ 2 ^ 53
  normal : e = -1074 ∨ 2 ^ 52 ≤ k

variable {m n k : ℕ} {e : ℤ} {q r : ℚ}

theorem Scaled.value_eq (h : Scaled m k e) : value m = k * 2 ^ e := by
  obtain ⟨t, rfl⟩ : ∃ t : ℕ, e = t - 1074 := ⟨(e + 1074).toNat, by have := h.least; omega⟩
  obtain ⟨rfl, -, hle, hnormal⟩ := h
  rw [show ((t : ℤ) - 1074 + 1074).toNat = t by omega]
  rcases Nat.lt_or_ge k (2 ^ 52) with hk | hk
  · obtain rfl : t = 0 := by omega
    rw [value, if_pos (by omega)]
    simp
  rw [value, if_neg (by omega)]
  rcases Nat.lt_or_ge k (2 ^ 53) with hk' | hk'
  · rw [show (t * 2 ^ 52 + k) % 2 ^ 52 + 2 ^ 52 = k by omega,
      show (((t * 2 ^ 52 + k) / 2 ^ 52 : ℕ) : ℤ) - 1075 = t - 1074 by omega]
  · obtain rfl : k = 2 ^ 53 := Nat.le_antisymm hle hk'
    rw [show (t * 2 ^ 52 + 2 ^ 53) % 2 ^ 52 + 2 ^ 52 = 2 ^ 52 by omega,
      show (((t * 2 ^ 52 + 2 ^ 53) / 2 ^ 52 : ℕ) : ℤ) - 1075 = (t - 1074) + 1 by omega,
      zpow_add_one₀ two_ne_zero]
    push_cast
    ring

theorem exists_scaled (m : ℕ) : ∃ k e, Scaled m k e ∧ k < 2 ^ 53 := by
  rcases Nat.lt_or_ge m (2 ^ 52) with hm | hm
  · exact ⟨m, -1074, ⟨by omega, by omega, by omega, .inl rfl⟩, by omega⟩
  · refine ⟨m % 2 ^ 52 + 2 ^ 52, (m / 2 ^ 52 : ℕ) - 1075, ⟨?_, ?_, ?_, .inr ?_⟩, ?_⟩ <;> omega

theorem Scaled.succ (h : Scaled m k e) (hk : k < 2 ^ 53) : Scaled (m + 1) (k + 1) e := by
  obtain ⟨heq, hleast, -, hnormal⟩ := h
  exact ⟨by omega, hleast, by omega, by omega⟩

theorem Scaled.even_iff (h : Scaled m k e) : Even m ↔ Even k := by
  rw [h.eq, Nat.even_iff, Nat.even_iff]
  omega

theorem value_lt_succ (m : ℕ) : value m < value (m + 1) := by
  obtain ⟨k, e, h, hk⟩ := exists_scaled m
  rw [h.value_eq, (h.succ hk).value_eq]
  push_cast
  have := zpow_pos (two_pos (α := ℚ)) e
  linarith

theorem value_strictMono : StrictMono value := strictMono_nat_of_lt_succ value_lt_succ

theorem value_zero : value 0 = 0 := by simp [value]

theorem value_nonneg (m : ℕ) : 0 ≤ value m := value_zero ▸ value_strictMono.monotone (Nat.zero_le m)

/-! ## Rounding -/

def middle (m : ℕ) : ℚ := (value m + value (m + 1)) / 2

theorem value_lt_middle (m : ℕ) : value m < middle m := by
  have := value_lt_succ m
  rw [middle]
  linarith

theorem middle_lt_value (m : ℕ) : middle m < value (m + 1) := by
  have := value_lt_succ m
  rw [middle]
  linarith

theorem middle_strictMono : StrictMono middle :=
  strictMono_nat_of_lt_succ fun m => (middle_lt_value m).trans (value_lt_middle (m + 1))

/-- The number lies between the middles on both sides of the magnitude. On a middle it goes to the
even magnitude. -/
structure RoundsTo (q : ℚ) (m : ℕ) : Prop where
  above : ∀ n, m = n + 1 → middle n ≤ q ∧ (middle n = q → Even m)
  below : q ≤ middle m ∧ (q = middle m → Even m)

theorem roundsTo_succ_iff : RoundsTo q (m + 1) ↔
    (middle m ≤ q ∧ (middle m = q → Even (m + 1))) ∧
      q ≤ middle (m + 1) ∧ (q = middle (m + 1) → Even (m + 1)) := by
  refine ⟨fun h => ⟨h.above m rfl, h.below⟩, fun h => ⟨?_, h.2⟩⟩
  rintro n hn
  obtain rfl : m = n := Nat.succ.inj hn
  exact h.1

theorem RoundsTo.mono (hq : RoundsTo q m) (hr : RoundsTo r n) (hle : q ≤ r) : m ≤ n := by
  by_contra hlt
  obtain ⟨i, rfl⟩ : ∃ i, m = i + 1 := ⟨m - 1, by omega⟩
  obtain ⟨habove, heven⟩ := hq.above i rfl
  obtain ⟨hbelow, heven'⟩ := hr.below
  have hmiddle : middle n ≤ middle i := middle_strictMono.monotone (by omega)
  -- All these are one middle, and the magnitudes beside it cannot both be even.
  have hsame : middle i = middle n := by linarith
  obtain rfl : i = n := middle_strictMono.injective hsame
  have := heven (by linarith)
  have := heven' (by linarith)
  grind

theorem RoundsTo.unique (hm : RoundsTo q m) (hn : RoundsTo q n) : m = n :=
  Nat.le_antisymm (hm.mono hn le_rfl) (hn.mono hm le_rfl)

theorem roundsTo_value (m : ℕ) : RoundsTo (value m) m where
  above n hn := by
    have := middle_lt_value n
    subst hn
    exact ⟨this.le, fun h => absurd h this.ne⟩
  below := ⟨(value_lt_middle m).le, fun h => absurd h (value_lt_middle m).ne⟩

/-! ## Middles by significand -/

theorem Scaled.middle_eq (h : Scaled m k e) (hk : k < 2 ^ 53) : middle m = (k + 1 / 2) * 2 ^ e := by
  rw [middle, h.value_eq, (h.succ hk).value_eq]
  push_cast
  ring

theorem Scaled.middle_pred (h : Scaled (n + 1) k e) :
    middle n = if k = 2 ^ 52 ∧ -1074 < e then ((k : ℚ) - 1 / 4) * 2 ^ e
      else ((k : ℚ) - 1 / 2) * 2 ^ e := by
  obtain ⟨heq, hleast, hle, hnormal⟩ := h
  split_ifs with hfirst
  · obtain ⟨rfl, he⟩ := hfirst
    have hpred : Scaled n (2 ^ 53 - 1) (e - 1) := ⟨by omega, by omega, by omega, by omega⟩
    rw [hpred.middle_eq (by omega), zpow_sub_one₀ two_ne_zero]
    norm_num
    ring
  · obtain ⟨k, rfl⟩ : ∃ i, k = i + 1 := ⟨k - 1, by omega⟩
    have hpred : Scaled n k e := ⟨by omega, hleast, by omega, by omega⟩
    rw [hpred.middle_eq (by omega)]
    push_cast
    ring

theorem Scaled.roundsTo (h : Scaled m k e) (hlow : (k - 1 / 2 : ℚ) * 2 ^ e ≤ q)
    (hhigh : q ≤ (k + 1 / 2 : ℚ) * 2 ^ e)
    (htie : q = (k - 1 / 2 : ℚ) * 2 ^ e ∨ q = (k + 1 / 2 : ℚ) * 2 ^ e → Even k)
    (hleast : e = -1074 ∨ 2 ^ 52 * 2 ^ e ≤ q) (hgreatest : q ≤ 2 ^ 53 * 2 ^ e) :
    RoundsTo q m := by
  have hpos : (0 : ℚ) < 2 ^ e := zpow_pos two_pos e
  constructor
  · rintro n rfl
    rw [h.middle_pred]
    split_ifs with hfirst
    · -- The number is no smaller than the least significand, and the middle is.
      have hq := hleast.resolve_left (by omega)
      have hlt : ((k : ℚ) - 1 / 4) * 2 ^ e < q := by
        rw [hfirst.1]
        push_cast
        linarith
      exact ⟨hlt.le, fun heq => absurd heq hlt.ne⟩
    · exact ⟨hlow, fun heq => h.even_iff.mpr (htie (.inl heq.symm))⟩
  · rcases h.le.lt_or_eq with hk | rfl
    · rw [h.middle_eq hk]
      exact ⟨hhigh, fun heq => h.even_iff.mpr (htie (.inr heq))⟩
    · have hlt : q < middle m := by
        refine lt_of_le_of_lt ?_ (value_lt_middle m)
        rw [h.value_eq]
        exact_mod_cast hgreatest
      exact ⟨hlt.le, fun heq => absurd heq hlt.ne⟩

end DocAnnotations.Binary64
