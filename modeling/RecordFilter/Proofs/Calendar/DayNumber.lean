import Mathlib.Data.Int.Init
import Mathlib.Data.Nat.Init
import Mathlib.Logic.Function.Iterate
import RecordFilter.Proofs.Calendar.Span

/-!
# Dates and day numbers

The day after a date is the next day of its month, else the first of the next month, else the first
of the next year. The day number counts these steps from the first of January 1970 on, backwards
before it, so dates are ordered as their numbers are and every number is that of one date. The date
of an instant is the one that its seconds have reached.
-/

namespace RecordFilter

namespace Date

structure OnCalendar (d : Date) : Prop where
  month_pos : 1 ≤ d.month
  month_le : d.month ≤ 12
  day_pos : 1 ≤ d.day
  day_le : d.day ≤ daysInMonth d.year d.month

def order (a b : Date) : Ordering :=
  (compare a.year b.year).then ((compare a.month b.month).then (compare a.day b.day))

def next (d : Date) : Date :=
  if d.day < daysInMonth d.year d.month then { d with day := d.day + 1 }
  else if d.month < 12 then ⟨d.year, d.month + 1, 1⟩
  else ⟨d.year + 1, 1, 1⟩

def previous (d : Date) : Date :=
  if 1 < d.day then { d with day := d.day - 1 }
  else if 1 < d.month then ⟨d.year, d.month - 1, daysInMonth d.year (d.month - 1)⟩
  else ⟨d.year - 1, 12, 31⟩

def ofDayNumber : Int → Date
  | .ofNat n => next^[n] ⟨1970, 1, 1⟩
  | .negSucc n => previous^[n + 1] ⟨1970, 1, 1⟩

variable {a b d : Date}

theorem onCalendar_of_isValid (h : d.isValid = true) : d.OnCalendar := by
  simp only [isValid, Bool.and_eq_true, decide_eq_true_eq] at h
  exact ⟨h.1.1.1.2, h.1.1.2, h.1.2, h.2⟩

theorem daysInMonth_pos (y : Int) (m : Nat) : 1 ≤ daysInMonth y m := by
  unfold daysInMonth
  split
  · split <;> decide
  all_goals decide

theorem daysInMonth_le (y : Int) (m : Nat) : daysInMonth y m ≤ 31 := by
  unfold daysInMonth
  split
  · split <;> decide
  all_goals decide

theorem daysBeforeMonth_succ (y : Int) {m : Nat} (h : 1 ≤ m) :
    daysBeforeMonth y (m + 1) = daysBeforeMonth y m + daysInMonth y m := by
  obtain ⟨k, rfl⟩ := Nat.exists_eq_add_of_le' h
  simp only [daysBeforeMonth, Nat.add_sub_cancel, List.range_succ, List.foldl_append,
    List.foldl_cons, List.foldl_nil]

theorem daysBeforeMonth_add_le (y : Int) {m m' : Nat} (hPos : 1 ≤ m) (h : m < m') :
    daysBeforeMonth y m + daysInMonth y m ≤ daysBeforeMonth y m' := by
  induction m', h using Nat.le_induction with
  | base => exact Nat.le_of_eq (daysBeforeMonth_succ y hPos).symm
  | succ n hn ih =>
    rw [daysBeforeMonth_succ y (by omega)]
    exact Nat.le_add_right_of_le ih

theorem daysBeforeMonth_thirteen_eq (y : Int) :
    daysBeforeMonth y 13 = daysBeforeMonth y 12 + 31 :=
  daysBeforeMonth_succ y (m := 12) (by decide)

theorem daysBeforeMonth_thirteen (y : Int) :
    daysBeforeMonth y 13 = 365 + if isLeapYear y then 1 else 0 := by
  cases h : isLeapYear y <;> simp [daysBeforeMonth, List.range_succ, daysInMonth, h]

theorem daysBeforeYear_succ (y : Int) :
    daysBeforeYear (y + 1) = daysBeforeYear y + daysBeforeMonth y 13 := by
  rw [daysBeforeMonth_thirteen, daysBeforeYear, daysBeforeYear, leapYearsBefore_succ]
  split <;> omega

theorem daysBeforeYear_add_le {y y' : Int} (h : y < y') :
    daysBeforeYear y + daysBeforeMonth y 13 ≤ daysBeforeYear y' := by
  induction y', h using Int.leInduction with
  | base => exact Int.le_of_eq (daysBeforeYear_succ y).symm
  | succ z hz ih =>
    rw [daysBeforeYear_succ]
    omega

theorem OnCalendar.dayOfYear_le (h : d.OnCalendar) :
    daysBeforeMonth d.year d.month + d.day ≤ daysBeforeMonth d.year 13 :=
  Nat.le_trans (Nat.add_le_add_left h.day_le _)
    (daysBeforeMonth_add_le d.year h.month_pos (Nat.lt_succ_of_le h.month_le))

theorem order_swap (a b : Date) : b.order a = (a.order b).swap := by
  simp only [order, Ordering.swap_then, ← Std.OrientedOrd.eq_swap]

theorem eq_of_order_eq (h : a.order b = .eq) : a = b := by
  simp only [order, Ordering.then_eq_eq, Std.LawfulEqOrd.compare_eq_iff_eq] at h
  obtain ⟨y, m, d⟩ := a
  obtain ⟨hYear, hMonth, hDay⟩ := h
  simp only at hYear hMonth hDay
  rw [hYear, hMonth, hDay]

theorem dayNumber_lt_of_order_eq_lt (ha : a.OnCalendar) (hb : b.OnCalendar)
    (h : a.order b = .lt) : a.dayNumber < b.dayNumber := by
  have hFirst := ha.dayOfYear_le
  have hLast := hb.day_pos
  simp only [order, Ordering.then_eq_lt, Int.compare_eq_lt, Nat.compare_eq_lt,
    Std.LawfulEqOrd.compare_eq_iff_eq] at h
  simp only [dayNumber]
  rcases h with hYear | ⟨hYear, hMonth | ⟨hMonth, hDay⟩⟩
  · have hYears := daysBeforeYear_add_le hYear
    omega
  · have hMonths := daysBeforeMonth_add_le a.year ha.month_pos hMonth
    have hDay := ha.day_le
    rw [← hYear]
    omega
  · rw [← hYear, ← hMonth]
    omega

theorem order_eq_compare_dayNumber (ha : a.OnCalendar) (hb : b.OnCalendar) :
    a.order b = compare a.dayNumber b.dayNumber := by
  cases h : a.order b with
  | lt => exact (Int.compare_eq_lt.mpr (dayNumber_lt_of_order_eq_lt ha hb h)).symm
  | eq =>
    rw [eq_of_order_eq h]
    exact Std.ReflCmp.compare_self.symm
  | gt =>
    have hSwap : b.order a = .lt := by rw [order_swap, h]; rfl
    exact (Int.compare_eq_gt.mpr (dayNumber_lt_of_order_eq_lt hb ha hSwap)).symm

theorem eq_of_dayNumber_eq (ha : a.OnCalendar) (hb : b.OnCalendar)
    (h : a.dayNumber = b.dayNumber) : a = b := by
  refine eq_of_order_eq ?_
  rw [order_eq_compare_dayNumber ha hb, h]
  exact Std.ReflCmp.compare_self

theorem OnCalendar.next (h : d.OnCalendar) : d.next.OnCalendar := by
  unfold Date.next
  split
  · rename_i hDay
    exact ⟨h.month_pos, h.month_le, Nat.le_add_left .., hDay⟩
  · split
    · rename_i hMonth
      exact ⟨Nat.le_add_left .., hMonth, Nat.le_refl 1, daysInMonth_pos ..⟩
    · exact ⟨Nat.le_refl 1, Nat.le_add_left 1 11, Nat.le_refl 1, daysInMonth_pos ..⟩

theorem OnCalendar.previous (h : d.OnCalendar) : d.previous.OnCalendar := by
  have hMonth := h.month_le
  have hDay := h.day_le
  unfold Date.previous
  split
  · exact ⟨h.month_pos, hMonth, by simp only; omega, by simp only; omega⟩
  · split
    · exact ⟨by simp only; omega, by simp only; omega, daysInMonth_pos .., Nat.le_refl _⟩
    · exact ⟨Nat.le_add_left 1 11, Nat.le_refl 12, Nat.le_add_left 1 30, Nat.le_refl 31⟩

theorem dayNumber_next (h : d.OnCalendar) : d.next.dayNumber = d.dayNumber + 1 := by
  have hDay := h.day_le
  unfold next
  split
  · simp only [dayNumber]
    omega
  · rename_i hEnd
    split
    · have hMonth := daysBeforeMonth_succ d.year h.month_pos
      simp only [dayNumber]
      omega
    · -- From the last of December to the first of January.
      have hLast : d.month = 12 := by have := h.month_le; omega
      have hYear := daysBeforeYear_succ d.year
      have hMonth := daysBeforeMonth_thirteen_eq d.year
      have hDecember : daysInMonth d.year 12 = 31 := rfl
      have hNewYear : daysBeforeMonth (d.year + 1) 1 = 0 := rfl
      rw [hLast, hDecember] at hDay hEnd
      simp only [dayNumber, hNewYear, hLast]
      omega

theorem dayNumber_previous (h : d.OnCalendar) : d.previous.dayNumber = d.dayNumber - 1 := by
  have hPos := h.day_pos
  unfold previous
  split
  · simp only [dayNumber]
    omega
  · split
    · rename_i hMonth
      have hBefore := daysBeforeMonth_succ d.year (m := d.month - 1) (by omega)
      rw [Nat.sub_add_cancel h.month_pos] at hBefore
      simp only [dayNumber]
      omega
    · -- From the first of January to the last of December.
      have hFirst : d.month = 1 := by have := h.month_pos; omega
      have hYear := daysBeforeYear_succ (d.year - 1)
      rw [Int.sub_add_cancel] at hYear
      have hMonth := daysBeforeMonth_thirteen_eq (d.year - 1)
      have hNewYear : daysBeforeMonth d.year 1 = 0 := rfl
      simp only [dayNumber, hFirst, hNewYear]
      omega

theorem ofDayNumber_spec (n : Int) : (ofDayNumber n).OnCalendar ∧ (ofDayNumber n).dayNumber = n := by
  have hEpoch : OnCalendar ⟨1970, 1, 1⟩ := onCalendar_of_isValid rfl
  cases n with
  | ofNat n =>
    rw [ofDayNumber]
    induction n with
    | zero => exact ⟨hEpoch, rfl⟩
    | succ n ih =>
      rw [Function.iterate_succ_apply']
      refine ⟨ih.1.next, ?_⟩
      rw [dayNumber_next ih.1, ih.2]
      rfl
  | negSucc n =>
    rw [ofDayNumber]
    induction n with
    | zero => exact ⟨hEpoch.previous, rfl⟩
    | succ n ih =>
      rw [Function.iterate_succ_apply']
      refine ⟨ih.1.previous, ?_⟩
      rw [dayNumber_previous ih.1, ih.2]
      omega

theorem onCalendar_ofDayNumber (n : Int) : (ofDayNumber n).OnCalendar := (ofDayNumber_spec n).1

theorem dayNumber_ofDayNumber (n : Int) : (ofDayNumber n).dayNumber = n := (ofDayNumber_spec n).2

theorem ofDayNumber_dayNumber (h : d.OnCalendar) : ofDayNumber d.dayNumber = d :=
  eq_of_dayNumber_eq (onCalendar_ofDayNumber _) h (dayNumber_ofDayNumber _)

end Date

def Instant.date (t : Instant) : Date := .ofDayNumber (t.seconds / 86400)

theorem Instant.date_order {d : Date} (h : d.OnCalendar) (t : Instant) :
    t.date.order d = compare (t.seconds / 86400) d.dayNumber := by
  rw [date, Date.order_eq_compare_dayNumber (Date.onCalendar_ofDayNumber _) h,
    Date.dayNumber_ofDayNumber]

namespace Calendar.Span

theorem stop_ofDate {d : Date} (h : d.OnCalendar) : (ofDate d).stop = (ofDate d.next).start := by
  simp only [ofDate, Date.dayNumber_next h, microsPerDay]
  omega

theorem stop_le_start_ofDate_iff {a b : Date} (ha : a.OnCalendar) (hb : b.OnCalendar) :
    (ofDate b).stop ≤ (ofDate a).start ↔ a.order b = .gt := by
  rw [Date.order_eq_compare_dayNumber ha hb, Int.compare_eq_gt]
  simp only [ofDate, microsPerDay]
  omega

/-- An instant lies before, in or after a day as its date is before it, is it or is after it. A leap
second would be counted into the day after. -/
theorem side_ofDate {d : Date} (h : d.OnCalendar) {t : Instant} (hNanos : t.nanos < 1000000000) :
    (ofDate d).side t.micros = t.date.order d := by
  have hStart : (ofDate d).start = d.dayNumber * 86400000000 := rfl
  have hStop : (ofDate d).stop = d.dayNumber * 86400000000 + 86400000000 := rfl
  have hMicros : t.micros = t.seconds * 1000000 + (t.nanos / 1000 : Nat) := rfl
  rw [Instant.date_order h, side]
  rcases Int.lt_trichotomy (t.seconds / 86400) d.dayNumber with hDay | hDay | hDay
  · rw [if_pos (by omega), Int.compare_eq_lt.mpr hDay]
  · rw [if_neg (by omega), if_pos (by omega), hDay]
    exact Std.ReflCmp.compare_self.symm
  · rw [if_neg (by omega), if_neg (by omega), Int.compare_eq_gt.mpr hDay]

end Calendar.Span

end RecordFilter
