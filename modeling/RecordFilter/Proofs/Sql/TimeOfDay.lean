import RecordFilter.Sql.Evaluate

/-!
# The time of day in SQL

A database cuts quotients off toward zero, so the remainder of a time before 1970 is negative. The
day added between the two remainders makes the result the microsecond of the day all the same.
-/

namespace RecordFilter

theorem tmod_add_tmod {m d : Int} (hd : 0 < d) : ((m.tmod d) + d).tmod d = m % d := by
  rcases Int.le_total 0 m with hm | hm
  · have hNonneg : 0 ≤ m % d := Int.emod_nonneg m (by omega)
    rw [Int.tmod_eq_emod_of_nonneg hm, Int.tmod_eq_emod_of_nonneg (by omega), Int.add_emod_right,
      Int.emod_emod_of_dvd m (Int.dvd_refl d)]
  · have hRemainder : m.tmod d + d = d - (-m) % d := by
      rw [← Int.neg_neg m, Int.neg_tmod, Int.tmod_eq_emod_of_nonneg (by omega), Int.neg_neg]
      omega
    have hBound : (-m) % d < d := Int.emod_lt_of_pos _ hd
    have hShift : d - (-m) % d = m + d * (1 + (-m) / d) := by
      rw [Int.emod_def, Int.mul_add, Int.mul_one]
      omega
    rw [hRemainder, Int.tmod_eq_emod_of_nonneg (by omega), hShift, Int.add_mul_emod_self_left]

namespace Sql

variable {α : Type} {row : α → StoredValue} {ps : Parameters} {e : Term α}

theorem integerRemainder_integer {a b : Int} (hb : b ≠ 0) :
    integerRemainder (.integer a) (.integer b) = .integer (a.tmod b) := by
  unfold integerRemainder
  split
  · rename_i h
    cases h
    exact absurd rfl hb
  · rfl

theorem eval_timeOfDay {m : Int} (h : e.eval row ps = .integer m) :
    e.timeOfDay.eval row ps = .integer (m % microsPerDay) := by
  have hDay : (microsPerDay : Int) ≠ 0 := by decide
  simp only [Term.timeOfDay, Term.eval, h, integerRemainder_integer hDay, integerArithmetic]
  rw [tmod_add_tmod (by decide)]

theorem eval_timeOfDay_null (h : e.eval row ps = .null) : e.timeOfDay.eval row ps = .null := by
  simp only [Term.timeOfDay, Term.eval, h]
  rfl

end Sql

end RecordFilter
