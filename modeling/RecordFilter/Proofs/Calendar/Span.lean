import RecordFilter.Calendar.Span

/-!
# Where an instant lies relative to a span

The start of a span with something in it is before its stop. An instant lies before such a span, in
it or after it, and its order to either bound follows from that.
-/

namespace RecordFilter.Calendar

namespace Span

/-- Where a count of microseconds lies: before the span, in it or after it. -/
def side (s : Span) (m : Int) : Ordering :=
  if m < s.start then .lt else if m < s.stop then .eq else .gt

variable {s : Span}

theorem side_cases (h : s.start < s.stop) (m : Int) :
    s.side m = .lt ∧ (compare m s.start == .lt) = true ∧ (compare m s.stop == .lt) = true ∨
      s.side m = .eq ∧ (compare m s.start == .lt) = false ∧ (compare m s.stop == .lt) = true ∨
      s.side m = .gt ∧ (compare m s.start == .lt) = false ∧ (compare m s.stop == .lt) = false := by
  simp only [side, beq_iff_eq, beq_eq_false_iff_ne, ne_eq, Int.compare_eq_lt]
  split
  · exact .inl ⟨rfl, ‹_›, by omega⟩
  · split
    · exact .inr (.inl ⟨rfl, by omega, ‹_›⟩)
    · exact .inr (.inr ⟨rfl, by omega, by omega⟩)

theorem start_lt_stop_instant (m : Int) : (instant m).start < (instant m).stop := Int.lt_succ m

theorem start_lt_stop_ofDate (d : Date) : (ofDate d).start < (ofDate d).stop :=
  Int.lt_add_of_pos_right _ (by decide)

end Span

end RecordFilter.Calendar
