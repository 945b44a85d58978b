import Mathlib.Order.Compare
import Mathlib.Order.Monotone.Basic
import RecordFilter.Binary64.Basic

/-!
# The order of binary64 values

The value of a magnitude grows strictly with the magnitude, so the order of keys, by which numbers
are compared, is the order of their exact values.
-/

namespace RecordFilter.Binary64

theorem scaledMagnitude_of_lt {m : Nat} (h : m < 2 ^ 52) : scaledMagnitude m = m := by
  have hField : m / 2 ^ 52 = 0 := Nat.div_eq_of_lt h
  rw [scaledMagnitude, significand, scale, if_pos hField, hField, Nat.zero_sub, Nat.pow_zero,
    Nat.mul_one]

/-- A significand of 53 bits over a scale. `2 ^ 53` is the carry out of the significand, which
moves on to the next scale without changing the value. -/
theorem scaledMagnitude_add {e q : Nat} (hLow : 2 ^ 52 ≤ q) (hHigh : q ≤ 2 ^ 53) :
    scaledMagnitude (e * 2 ^ 52 + q) = q * 2 ^ e := by
  rcases Nat.lt_or_eq_of_le hHigh with hLt | rfl
  · have hField : (e * 2 ^ 52 + q) / 2 ^ 52 = e + 1 := by omega
    have hRest : (e * 2 ^ 52 + q) % 2 ^ 52 = q - 2 ^ 52 := by omega
    have hSignificand : 2 ^ 52 + (q - 2 ^ 52) = q := by omega
    rw [scaledMagnitude, significand, scale, hField, hRest, hSignificand]
    rfl
  · have hField : (e * 2 ^ 52 + 2 ^ 53) / 2 ^ 52 = e + 2 := by omega
    have hRest : (e * 2 ^ 52 + 2 ^ 53) % 2 ^ 52 = 0 := by omega
    rw [scaledMagnitude, significand, scale, hField, hRest, if_neg (by omega)]
    change (2 ^ 52 + 0) * 2 ^ (e + 1) = 2 ^ 53 * 2 ^ e
    rw [Nat.pow_succ]
    omega

theorem exists_eq_scale_add {m : Nat} (h : 2 ^ 52 ≤ m) :
    ∃ e q, 2 ^ 52 ≤ q ∧ q < 2 ^ 53 ∧ m = e * 2 ^ 52 + q :=
  ⟨m / 2 ^ 52 - 1, m % 2 ^ 52 + 2 ^ 52, by omega, by omega, by omega⟩

theorem scaledMagnitude_strictMono : StrictMono scaledMagnitude := by
  apply strictMono_nat_of_lt_succ
  intro m
  rcases Nat.lt_or_ge m (2 ^ 52) with h | h
  · rw [scaledMagnitude_of_lt h]
    rcases Nat.lt_or_eq_of_le (Nat.succ_le_of_lt h) with hNext | hNext
    · rw [scaledMagnitude_of_lt hNext]
      exact Nat.lt_succ_self m
    · have hCarry : m + 1 = 0 * 2 ^ 52 + 2 ^ 52 := by omega
      rw [hCarry, scaledMagnitude_add (Nat.le_refl _) (by decide)]
      omega
  · obtain ⟨e, q, hLow, hHigh, rfl⟩ := exists_eq_scale_add h
    rw [Nat.add_assoc, scaledMagnitude_add hLow hHigh.le,
      scaledMagnitude_add (by omega) (by omega : q + 1 ≤ 2 ^ 53)]
    exact Nat.mul_lt_mul_of_pos_right (Nat.lt_succ_self q) (Nat.two_pow_pos e)

theorem scaledMagnitude_zero : scaledMagnitude 0 = 0 := scaledMagnitude_of_lt (by decide)

/-- Zeros of either sign stand for the value 0 and have the key 0. -/
theorem scaled_lt_scaled_iff (x y : Binary64) : x.scaled < y.scaled ↔ x.key < y.key := by
  have hLt := scaledMagnitude_strictMono.lt_iff_lt (a := x.magnitude) (b := y.magnitude)
  have hGt := scaledMagnitude_strictMono.lt_iff_lt (a := y.magnitude) (b := x.magnitude)
  have hx := scaledMagnitude_strictMono.lt_iff_lt (a := 0) (b := x.magnitude)
  have hy := scaledMagnitude_strictMono.lt_iff_lt (a := 0) (b := y.magnitude)
  rw [scaledMagnitude_zero] at hx hy
  simp only [scaled, key]
  cases x.isNegative <;> cases y.isNegative <;> simp only [Bool.false_eq_true, if_true, if_false] <;>
    omega

theorem compare_scaled (x y : Binary64) : compare x.scaled y.scaled = compare x.key y.key := by
  rcases lt_trichotomy x.key y.key with h | h | h
  · rw [compare_lt_iff_lt.mpr h, compare_lt_iff_lt.mpr ((scaled_lt_scaled_iff x y).mpr h)]
  · have hxy := scaled_lt_scaled_iff x y
    have hyx := scaled_lt_scaled_iff y x
    rw [compare_eq_iff_eq.mpr h, compare_eq_iff_eq.mpr (by omega)]
  · rw [compare_gt_iff_gt.mpr h, compare_gt_iff_gt.mpr ((scaled_lt_scaled_iff y x).mpr h)]

end RecordFilter.Binary64
