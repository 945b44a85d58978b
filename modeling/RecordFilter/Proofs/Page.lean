import RecordFilter.Sql.Query

/-!
# Pages as slices

A page of a list is what is left of it after the rows before the page, cut to the size. Cutting
offsets and sizes off at the range of a machine word changes nothing, since no list is that long.
-/

namespace RecordFilter.Page

variable {α : Type}

theorem slice_eq_drop_take (p : Page) (xs : List α) :
    p.slice xs = (xs.take (p.bounds xs.length).2).drop (p.bounds xs.length).1 := rfl

theorem window_eq_slice (p : Page) (xs : List α) : p.window xs = p.slice xs := by
  rw [slice_eq_drop_take, List.drop_take]
  rfl

theorem slice_map {β : Type} (f : α → β) (p : Page) (xs : List α) :
    p.slice (xs.map f) = (p.slice xs).map f := by
  simp only [slice, List.length_map, List.map_drop, List.map_take]

theorem slice_sublist (p : Page) (xs : List α) : (p.slice xs).Sublist xs :=
  (List.drop_sublist _ _).trans (List.take_sublist _ _)

theorem slice_of_length_le_offset {p : Page} {xs : List α} (h : xs.length ≤ p.offset) :
    p.slice xs = [] := by
  have hStart : (p.bounds xs.length).1 = xs.length := Nat.min_eq_right h
  rw [slice_eq_drop_take, hStart]
  exact List.drop_of_length_le (List.length_take_le' _ _)

theorem slice_eq_take_drop {p : Page} {xs : List α} (h : xs.length ≤ wordMax) :
    p.slice xs = (xs.drop p.offset).take p.size := by
  rcases Nat.le_total xs.length p.offset with hPast | hInside
  · rw [slice_of_length_le_offset hPast, List.drop_of_length_le hPast, List.take_nil]
  · have hStart : (p.bounds xs.length).1 = p.offset := Nat.min_eq_left hInside
    have hStop : (p.bounds xs.length).2 = min (p.offset + p.size) xs.length := by
      simp only [bounds]
      omega
    rw [slice_eq_drop_take, hStart, hStop, List.drop_take]
    rcases Nat.le_total (p.offset + p.size) xs.length with hFull | hShort
    · rw [Nat.min_eq_left hFull, Nat.add_sub_cancel_left]
    · rw [Nat.min_eq_right hShort, List.take_of_length_le (by simp),
        List.take_of_length_le (by simp; omega)]

/-- The rows that a database gives for a page within the range of row numbers. -/
theorem take_drop_rowNumber {p : Page} {xs : List α} (h : xs.length < 2 ^ 63) :
    (xs.drop (Sql.Query.rowNumber p.offset)).take (Sql.Query.rowNumber p.size) = p.slice xs := by
  rw [slice_eq_take_drop (by simp only [wordMax]; omega)]
  have hOffset : xs.drop (Sql.Query.rowNumber p.offset) = xs.drop p.offset := by
    rw [List.drop_eq_drop_iff, Sql.Query.rowNumber]
    omega
  rw [hOffset, List.take_eq_take_iff, List.length_drop, Sql.Query.rowNumber]
  omega

end RecordFilter.Page
