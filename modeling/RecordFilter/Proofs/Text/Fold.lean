import Mathlib.Data.List.Forall2
import RecordFilter.Text.Fold

/-!
# What folding forgets

Folding makes `A` to `Z` lower case and forgets the case of ASCII letters and nothing else, so two
texts fold alike exactly when they differ in that case alone. Digits are left as they are.
-/

namespace RecordFilter.Text

/-- The other case of an ASCII letter; any other character is left as it is. -/
def otherCase (c : Char) : Char := if c.isUpper then c.toLower else c.toUpper

theorem isUpper_iff {c : Char} : c.isUpper ↔ 65 ≤ c.toNat ∧ c.toNat ≤ 90 := by
  refine decide_eq_true_iff.trans ?_
  rw [ge_iff_le, UInt32.le_iff_toNat_le, UInt32.le_iff_toNat_le]
  rfl

theorem toNat_toLower (c : Char) :
    c.toLower.toNat = if 65 ≤ c.toNat ∧ c.toNat ≤ 90 then c.toNat + 32 else c.toNat := by
  have hRange : c.val ≥ 'A'.val ∧ c.val ≤ 'Z'.val ↔ 65 ≤ c.toNat ∧ c.toNat ≤ 90 := by
    rw [ge_iff_le, UInt32.le_iff_toNat_le, UInt32.le_iff_toNat_le]
    rfl
  delta Char.toLower
  by_cases h : 65 ≤ c.toNat ∧ c.toNat ≤ 90
  · have hShifted : (c.val + 32).toNat = c.toNat + 32 := by
      rw [UInt32.toNat_add, Char.toNat_val]
      change (c.toNat + 32) % 4294967296 = c.toNat + 32
      omega
    rw [if_pos h, dif_pos (hRange.mpr h)]
    exact hShifted
  · rw [if_neg h, dif_neg (fun hUpper => h (hRange.mp hUpper))]

theorem toNat_toUpper (c : Char) :
    c.toUpper.toNat = if 97 ≤ c.toNat ∧ c.toNat ≤ 122 then c.toNat - 32 else c.toNat := by
  have hRange : 'a'.val ≤ c.val ∧ c.val ≤ 'z'.val ↔ 97 ≤ c.toNat ∧ c.toNat ≤ 122 := by
    rw [UInt32.le_iff_toNat_le, UInt32.le_iff_toNat_le]
    rfl
  delta Char.toUpper
  by_cases h : 97 ≤ c.toNat ∧ c.toNat ≤ 122
  · -- The shift is written as an addition that goes once around the 32 bits.
    have hShifted : (c.val + 4294967264).toNat = c.toNat - 32 := by
      rw [UInt32.toNat_add, Char.toNat_val]
      change (c.toNat + 4294967264) % 4294967296 = c.toNat - 32
      omega
    rw [if_pos h, dif_pos (hRange.mpr h)]
    exact hShifted
  · rw [if_neg h, dif_neg (fun hLower => h (hRange.mp hLower))]

theorem toNat_otherCase (c : Char) :
    (otherCase c).toNat =
      if 65 ≤ c.toNat ∧ c.toNat ≤ 90 then c.toNat + 32
      else if 97 ≤ c.toNat ∧ c.toNat ≤ 122 then c.toNat - 32 else c.toNat := by
  by_cases h : 65 ≤ c.toNat ∧ c.toNat ≤ 90
  · rw [otherCase, if_pos (isUpper_iff.mpr h), toNat_toLower, if_pos h, if_pos h]
  · rw [otherCase, if_neg (fun hUpper => h (isUpper_iff.mp hUpper)), toNat_toUpper, if_neg h]

theorem toLower_eq_toLower_iff {a b : Char} :
    a.toLower = b.toLower ↔ b = a ∨ b = otherCase a := by
  rw [← Char.toNat_inj, ← Char.toNat_inj, ← Char.toNat_inj, toNat_toLower, toNat_toLower,
    toNat_otherCase]
  grind

theorem isUpper_toLower (c : Char) : c.toLower.isUpper = false := by
  rw [Bool.eq_false_iff, Ne, isUpper_iff, toNat_toLower]
  split <;> omega

theorem toLower_of_isDigit {c : Char} (h : c.isDigit = true) : c.toLower = c := by
  have hRange : 48 ≤ c.toNat ∧ c.toNat ≤ 57 := Char.isDigit_iff_toNat.mp h
  rw [← Char.toNat_inj, toNat_toLower, if_neg (by omega)]

/-- The texts differ at most in the case of ASCII letters. -/
def SameButCase (s t : String) : Prop :=
  List.Forall₂ (fun a b => b = a ∨ b = otherCase a) s.toList t.toList

theorem fold_eq_fold_iff {s t : String} : fold s = fold t ↔ SameButCase s t := by
  rw [← String.toList_inj, toList_fold, toList_fold, SameButCase, ← List.forall₂_eq_eq_eq,
    List.forall₂_map_left_iff, List.forall₂_map_right_iff]
  simp only [toLower_eq_toLower_iff]

/-- Folding has nothing to do: the text has no letter from `A` to `Z`. -/
def IsFolded (s : String) : Prop := ∀ c ∈ s.toList, c.isUpper = false

theorem isFolded_fold (s : String) : IsFolded (fold s) := by
  rw [IsFolded, toList_fold]
  exact List.forall_mem_map.mpr fun c _ => isUpper_toLower c

end RecordFilter.Text
