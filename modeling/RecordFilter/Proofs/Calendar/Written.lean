import Mathlib.Data.Nat.Digits.Defs
import RecordFilter.Proofs.Calendar.DayNumber
import RecordFilter.Proofs.Calendar.Meaning

/-!
# Written dates

A date is written as year, month and day with one of three separators between them, and a year that
has not four digits or fewer carries a sign. Every date can be written so, and whatever is written
so is read as the span of the date.
-/

namespace RecordFilter

open Calendar

def Calendar.dateSeparators : List Char := ['-', '/', '.']

/-- The text names the date; there may be blanks around it. -/
def Date.WrittenAs (d : Date) (text : String) : Prop :=
  ∃ separator ∈ dateSeparators, ∃ ys ms ds : List Char,
    WritesYear d.year ys ∧ Writes 2 d.month ms ∧ Writes 2 d.day ds ∧
      Text.trim text.toList = ys ++ separator :: (ms ++ separator :: ds)

namespace Calendar

variable {y : Int} {m n width : Nat} {separator other : Char} {ys ms ds rest : List Char} {f : Fields}

theorem isDigit_of_mem_dateSeparators (h : separator ∈ dateSeparators) :
    separator.isDigit = false := by
  simp only [dateSeparators, List.mem_cons, List.not_mem_nil, or_false] at h
  rcases h with rfl | rfl | rfl <;> rfl

theorem scan?_yearMonthDay (hSeparator : separator ∈ dateSeparators) (hy : WritesYear y ys)
    (hm : Writes 2 m ms) (hd : Writes 2 n ds) (hRest : Text.EndsDigits rest) :
    (yearMonthDay separator).scan? (ys ++ separator :: (ms ++ separator :: (ds ++ rest))) f =
      some (rest, { f with year := y, month := m, day := n }) := by
  have hEnds := Text.endsDigits_cons (isDigit_of_mem_dateSeparators hSeparator)
  exact scan?_yearMonthDay_of_reads (readYear?_trimStart hy (hEnds _))
    (readDigits?_trimStart hm (hEnds _)) (readDigits?_trimStart hd hRest)

theorem date?_read?_yearMonthDay {d : Date} (hDate : d.isValid = true)
    (hSeparator : separator ∈ dateSeparators) (hy : WritesYear d.year ys)
    (hm : Writes 2 d.month ms) (hd : Writes 2 d.day ds) :
    ((yearMonthDay separator).read? (ys ++ separator :: (ms ++ separator :: ds))).bind
      Fields.date? = some d := by
  have hScan := scan?_yearMonthDay (f := {}) hSeparator hy hm hd Text.endsDigits_nil
  rw [List.append_nil] at hScan
  rw [Pattern.read?_eq_some_iff.mpr hScan]
  exact if_pos hDate

/-- A written date is made of digits, signs and separators. -/
theorem forall_mem_written {p : Char → Prop} (hDigit : ∀ c, c.isDigit = true → p c)
    (hMark : ∀ c ∈ '+' :: dateSeparators, p c) (hSeparator : separator ∈ dateSeparators)
    (hy : WritesYear y ys) (hm : Writes 2 m ms) (hd : Writes 2 n ds) :
    ∀ c ∈ ys ++ separator :: (ms ++ separator :: ds), p c := by
  have hDigits {width k : Nat} {cs : List Char} (h : Writes width k cs) : ∀ c ∈ cs, p c :=
    fun c hc => hDigit c (h.isDigit c hc)
  have hYear : ∀ c ∈ ys, p c := by
    cases hy with
    | plain h => exact hDigits h
    | plus h => exact List.forall_mem_cons.mpr ⟨hMark _ (by decide), hDigits h⟩
    | minus h => exact List.forall_mem_cons.mpr ⟨hMark _ (by decide), hDigits h⟩
  have hMiddle : p separator := hMark _ (List.mem_cons_of_mem _ hSeparator)
  simp only [List.forall_mem_append, List.forall_mem_cons]
  exact ⟨hYear, hMiddle, hDigits hm, hMiddle, hDigits hd⟩

theorem readDateSpan?_of_writtenAs {d : Date} (hDate : d.isValid = true) {text : String}
    (h : d.WrittenAs text) : readDateSpan? text = some (.ofDate d) := by
  obtain ⟨separator, hSeparator, ys, ms, ds, hy, hm, hd, hText⟩ := h
  refine HasReading.readDateSpan?_date
    ⟨_, List.mem_map.mpr ⟨yearMonthDay separator, ?_, rfl⟩, ?_⟩
  · exact List.mem_map_of_mem hSeparator
  · rw [hText]
    exact date?_read?_yearMonthDay hDate hSeparator hy hm hd

/-- A number in so many digits or more, with zeros in front of shorter ones. -/
def padded (width n : Nat) : List Char :=
  List.replicate (width - (Nat.toDigits 10 n).length) '0' ++ Nat.toDigits 10 n

/-- A year in four digits, with a sign if that is not enough. -/
def yearText (y : Int) : List Char :=
  if 0 ≤ y ∧ y < 10000 then padded 4 y.toNat
  else (if y < 0 then '-' else '+') :: padded 4 y.natAbs

theorem digitsValue_padded (width n : Nat) : Text.digitsValue (padded width n) = n := by
  have hZeros (k : Nat) : Text.digitsValue (List.replicate k '0') = 0 :=
    Nat.ofDigitChars_replicate_zero
  rw [padded, Text.digitsValue_append, hZeros, Text.digitsValue_toDigits, Nat.mul_zero,
    Nat.zero_add]

theorem writes_padded (width n : Nat) : Writes (padded width n).length n (padded width n) where
  ne_nil h := Nat.toDigits_ne_nil (List.append_eq_nil_iff.mp h).2
  length_le := Nat.le_refl _
  isDigit c hc := by
    rcases List.mem_append.mp hc with hc | hc
    · rw [List.eq_of_mem_replicate hc]
      rfl
    · exact Text.isDigit_of_mem_toDigits c hc
  value := digitsValue_padded width n

theorem length_padded (hWidth : 0 < width) (h : n < 10 ^ width) :
    (padded width n).length = width := by
  have hLength : (Nat.toDigits 10 n).length ≤ width := Nat.toDigits_length 10 n width hWidth h
  rw [padded, List.length_append, List.length_replicate]
  omega

theorem writes_padded_of_lt (hWidth : 0 < width) (h : n < 10 ^ width) :
    Writes width n (padded width n) :=
  { writes_padded width n with length_le := Nat.le_of_eq (length_padded hWidth h) }

theorem writes_two (h : n < 100) : Writes 2 n (padded 2 n) := writes_padded_of_lt (by decide) h

theorem readFixedDigits?_padded (hWidth : 0 < width) (h : n < 10 ^ width) :
    readFixedDigits? width (padded width n ++ rest) = some (n, rest) :=
  readFixedDigits?_append (writes_padded_of_lt hWidth h) (length_padded hWidth h)

theorem readFixedDigits?_two (h : n < 100) (rest : List Char) :
    readFixedDigits? 2 (padded 2 n ++ rest) = some (n, rest) := readFixedDigits?_padded (by decide) h

theorem writesYear_yearText (y : Int) : WritesYear y (yearText y) := by
  unfold yearText
  split
  · have hYear := WritesYear.plain (writes_padded_of_lt (n := y.toNat) (by decide) (by omega))
    rwa [Int.toNat_of_nonneg (by omega)] at hYear
  · split
    · have hYear := WritesYear.minus (writes_padded 4 y.natAbs)
      rwa [show -(y.natAbs : Int) = y by omega] at hYear
    · have hYear := WritesYear.plus (writes_padded 4 y.natAbs)
      rwa [show (y.natAbs : Int) = y by omega] at hYear

end Calendar

def Date.text (separator : Char) (d : Date) : String :=
  .ofList (yearText d.year ++ separator :: (padded 2 d.month ++ separator :: padded 2 d.day))

theorem Date.writtenAs_text {d : Date} (h : d.OnCalendar) {separator : Char}
    (hSeparator : separator ∈ dateSeparators) : d.WrittenAs (d.text separator) := by
  have hMonth := h.month_le
  have hDay := Nat.le_trans h.day_le (daysInMonth_le ..)
  have hy := writesYear_yearText d.year
  have hm := writes_two (n := d.month) (by omega)
  have hd := writes_two (n := d.day) (by omega)
  refine ⟨separator, hSeparator, _, _, _, hy, hm, hd, ?_⟩
  rw [text, String.toList_ofList]
  refine Text.trim_eq_self
    (forall_mem_written (fun _ => Text.isBlank_of_isDigit) ?_ hSeparator hy hm hd)
  simp only [dateSeparators, List.mem_cons, List.not_mem_nil, or_false, forall_eq_or_imp, forall_eq]
  decide

end RecordFilter
