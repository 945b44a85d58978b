import RecordFilter.Proofs.Binary64.Rounding
import RecordFilter.Proofs.Database.Cell

/-!
# Comparisons of numbers in memory and in a database

A database compares integers and reals by their exact values. In memory an integer is rounded to a
real before it meets one. Rounding is monotone, so the two comparisons can only differ when it
makes the sides equal: the integer is then said to round onto the real.
-/

namespace RecordFilter

open Sql

/-- The nearest real of the integer is equal to `x`, whose value is another one. -/
def RoundsOnto (n : Int) (x : Binary64) : Prop :=
  (Binary64.ofInt n).scaled = x.scaled ∧ scaledInteger n ≠ x.scaled

instance (n : Int) (x : Binary64) : Decidable (RoundsOnto n x) :=
  inferInstanceAs (Decidable (_ ∧ _))

theorem scaledInteger_eq (n : Int) : scaledInteger n = n * (2 ^ 1074 : Nat) :=
  congrArg (n * ·) (Int.natCast_pow 2 1074).symm

theorem not_roundsOnto_of_natAbs_le {n : Int} (h : n.natAbs ≤ 2 ^ 53) (x : Binary64) :
    ¬ RoundsOnto n x := by
  rintro ⟨hRound, hValue⟩
  rw [Binary64.scaled_ofInt_of_natAbs_le h, ← scaledInteger_eq] at hRound
  exact hValue hRound

theorem compare_ofInt_key {n : Int} {x : Binary64} (hx : x.isNaN = false) :
    compare (Binary64.ofInt n).key x.key =
      if RoundsOnto n x then .eq else compare (scaledInteger n) x.scaled := by
  obtain ⟨hLe, hGe⟩ := Binary64.scaled_ofInt_bounds (n := n) hx
  rw [← scaledInteger_eq] at hLe hGe
  rw [← Binary64.compare_scaled]
  split
  · rename_i h
    exact compare_eq_iff_eq.mpr h.1
  · rename_i h
    rcases lt_trichotomy (scaledInteger n) x.scaled with hLt | hEq | hGt
    · have hNe : (Binary64.ofInt n).scaled ≠ x.scaled := fun he => h ⟨he, hLt.ne⟩
      rw [compare_lt_iff_lt.mpr hLt, compare_lt_iff_lt.mpr (lt_of_le_of_ne (hLe hLt.le) hNe)]
    · rw [compare_eq_iff_eq.mpr hEq,
        compare_eq_iff_eq.mpr (le_antisymm (hLe hEq.le) (hGe hEq.ge))]
    · have hNe : x.scaled ≠ (Binary64.ofInt n).scaled := fun he => h ⟨he.symm, hGt.ne'⟩
      rw [compare_gt_iff_gt.mpr hGt, compare_gt_iff_gt.mpr (lt_of_le_of_ne (hGe hGt.le) hNe)]

namespace Number

def real? : Number → Option Binary64
  | real x => some x
  | _ => none

/-- The integer that a number is bound as. -/
def boundInteger? : Number → Option Int
  | int n => some n.toInt
  | nat n => if n.toNat < 2 ^ 63 then some n.toNat else none
  | real _ => none

/-- One of the numbers is bound as an integer and rounds onto the other. -/
def Confused (a b : Number) : Prop :=
  (∃ n ∈ a.boundInteger?, ∃ x ∈ b.real?, RoundsOnto n x) ∨
    ∃ n ∈ b.boundInteger?, ∃ x ∈ a.real?, RoundsOnto n x

instance (a b : Number) : Decidable (Confused a b) := inferInstanceAs (Decidable (_ ∨ _))

/-- An integer meets a real only if it has at most 53 bits. -/
def MeetExactly (a b : Number) : Prop :=
  (∀ n ∈ a.integer?, ∀ x ∈ b.real?, n.natAbs ≤ 2 ^ 53) ∧
    ∀ n ∈ b.integer?, ∀ x ∈ a.real?, n.natAbs ≤ 2 ^ 53

theorem integer?_of_boundInteger? {a : Number} {n : Int} (h : a.boundInteger? = some n) :
    a.integer? = some n := by
  cases a with
  | int m => exact h
  | nat m =>
    simp only [boundInteger?] at h
    split at h
    · exact h
    · cases h
  | real x => cases h

theorem MeetExactly.not_confused {a b : Number} (h : MeetExactly a b) : ¬ Confused a b := by
  rintro (⟨n, hn, x, hx, hRounds⟩ | ⟨n, hn, x, hx, hRounds⟩)
  · exact not_roundsOnto_of_natAbs_le (h.1 n (integer?_of_boundInteger? hn) x hx) x hRounds
  · exact not_roundsOnto_of_natAbs_le (h.2 n (integer?_of_boundInteger? hn) x hx) x hRounds

theorem isNaN_eq_false_of_isFinite {x : Binary64} (h : (real x).isFinite) : x.isNaN = false := by
  simp only [isFinite, Binary64.isFinite, decide_eq_true_eq] at h
  simpa [Binary64.isNaN] using h.le

theorem toReal_nat (n : UInt64) : (nat n).toReal = .ofInt n.toNat := rfl

theorem compare?_real_of_integer {a : Number} {n : Int} (ha : a.integer? = some n)
    (hReal : a.toReal = .ofInt n) {x : Binary64} (hx : x.isNaN = false) :
    a.compare? (real x) =
      some (if RoundsOnto n x then .eq else compare (scaledInteger n) x.scaled) := by
  rw [compare?, ha, hReal]
  change (Binary64.ofInt n).compare? x = _
  rw [Binary64.compare?, Binary64.isNaN_ofInt, hx, ← compare_ofInt_key hx]
  rfl

theorem compare?_integer_of_real {b : Number} {n : Int} (hb : b.integer? = some n)
    (hReal : b.toReal = .ofInt n) {x : Binary64} (hx : x.isNaN = false) :
    (real x).compare? b =
      some (if RoundsOnto n x then .eq else compare x.scaled (scaledInteger n)) := by
  have hKeys : compare x.key (Binary64.ofInt n).key =
      if RoundsOnto n x then .eq else compare x.scaled (scaledInteger n) := by
    rw [← Int.compare_swap, compare_ofInt_key hx]
    split
    · rfl
    · exact Int.compare_swap ..
  rw [compare?, hb, hReal, ← hKeys]
  change x.compare? (Binary64.ofInt n) = _
  rw [Binary64.compare?, Binary64.isNaN_ofInt, hx]
  rfl

/-- An unsigned integer beyond the signed range is bound as a real that lies beyond it too. -/
theorem compare_scaled_toReal_of_le {m : Int64} {n : UInt64} (h : 2 ^ 63 ≤ n.toNat) :
    compare (scaledInteger m.toInt) (nat n).toReal.scaled = .lt := by
  have hRound := Binary64.le_scaledMagnitude_roundRatio (k := 11) (by decide) h
  have hBound : scaledInteger (2 ^ 63) ≤ (Binary64.ofInt n.toNat).scaled := by
    rw [Binary64.scaled_ofInt, if_neg (by omega), scaledInteger_eq]
    have hBase : ((2 ^ (52 + 11) : Nat) : Int) = 2 ^ 63 := rfl
    rw [← hBase, ← Int.natCast_mul]
    exact Int.ofNat_le.mpr hRound
  have hRange : scaledInteger m.toInt < scaledInteger (2 ^ 63) :=
    Int.mul_lt_mul_of_pos_right m.toInt_lt (Int.pow_pos (by decide))
  exact compare_lt_iff_lt.mpr (hRange.trans_le hBound)

theorem compare?_of_integer_cell (n : Int64) {o : Number} (ho : o.isFinite) :
    ∃ order, (StoredValue.integer n.toInt).compare? (.ofParameter (.ofNumber o)) = some order ∧
      (int n).compare? o = some (if Confused (int n) o then .eq else order) := by
  cases o with
  | int m => exact ⟨_, rfl, by simp [Confused, real?, compare?, integer?]⟩
  | nat m =>
    have hMemory : (int n).compare? (nat m) = some (compare n.toInt m.toNat) := rfl
    have hConfused : ¬ Confused (int n) (nat m) := by simp [Confused, real?]
    simp only [hMemory, hConfused, if_false, Parameter.ofNumber]
    split
    · exact ⟨_, rfl, rfl⟩
    · rename_i hLarge
      have hLt : n.toInt < m.toNat := by
        have := n.toInt_lt
        omega
      refine ⟨_, rfl, congrArg some ?_⟩
      exact (compare_lt_iff_lt.mpr hLt).trans
        (compare_scaled_toReal_of_le (Nat.not_lt.mp hLarge)).symm
  | real y =>
    refine ⟨_, rfl, ?_⟩
    rw [compare?_real_of_integer rfl rfl (isNaN_eq_false_of_isFinite ho)]
    simp [Confused, real?, boundInteger?]

theorem compare?_of_real_cell {x : Binary64} (hx : x.isNaN = false) {o : Number}
    (ho : o.isFinite) :
    ∃ order, (StoredValue.real x).compare? (.ofParameter (.ofNumber o)) = some order ∧
      (real x).compare? o = some (if Confused (real x) o then .eq else order) := by
  cases o with
  | int m =>
    refine ⟨_, rfl, ?_⟩
    rw [compare?_integer_of_real rfl rfl hx]
    simp [Confused, real?, boundInteger?]
  | nat m =>
    by_cases hSmall : m.toNat < 2 ^ 63
    · have hBound : (nat m).boundInteger? = some (m.toNat : Int) := if_pos hSmall
      rw [compare?_integer_of_real rfl (toReal_nat m) hx, Parameter.ofNumber, if_pos hSmall]
      refine ⟨_, rfl, ?_⟩
      simp [Confused, real?, hBound]
    · have hBound : (nat m).boundInteger? = none := if_neg hSmall
      have hNaN : (nat m).toReal.isNaN = false := Binary64.isNaN_ofInt m.toNat
      have hConfused : ¬ Confused (real x) (nat m) := by
        simp [Confused, real?, hBound]
      simp only [if_neg hConfused, Parameter.ofNumber, if_neg hSmall]
      refine ⟨_, rfl, ?_⟩
      change x.compare? (nat m).toReal = _
      rw [Binary64.compare?, hx, hNaN]
      rfl
  | real y =>
    have hConfused : ¬ Confused (real x) (real y) := by simp [Confused, boundInteger?]
    simp only [hConfused, if_false]
    refine ⟨_, rfl, ?_⟩
    change x.compare? y = _
    rw [Binary64.compare?, hx, isNaN_eq_false_of_isFinite ho]
    rfl

/-- The order a database finds between a stored number and a bound one, and the order found in
memory, which rounds. -/
theorem compare?_of_cell? {v o : Number} {cell : StoredValue}
    (hv : DataType.number.cell? (.number v) = some cell) (ho : o.isFinite) :
    ∃ order, cell.compare? (.ofParameter (.ofNumber o)) = some order ∧
      v.compare? o = some (if Confused v o then .eq else order) := by
  rcases DataType.eq_of_cell?_number hv with ⟨h, -⟩ | ⟨n, h, rfl⟩ | ⟨x, h, hx, rfl⟩
  · cases h
  · cases h
    exact compare?_of_integer_cell n ho
  · cases h
    exact compare?_of_real_cell hx ho

end Number

end RecordFilter
