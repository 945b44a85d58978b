import RecordFilter.Calendar.Span
import RecordFilter.Proofs.Text.Blank
import RecordFilter.Proofs.Text.Digits

/-!
# Reading the parts of a pattern

Digits are read as the number that they write, up to a character that is no digit, and nothing else
is read as a number. Digits in a fixed place are read alike where blanks may stand in front of them.
-/

namespace RecordFilter

namespace Calendar

open Text

/-- One digit or more, at most so many, that write a number. There may be zeros in front. -/
structure Writes (width n : Nat) (ds : List Char) : Prop where
  ne_nil : ds ≠ []
  length_le : ds.length ≤ width
  isDigit : ∀ c ∈ ds, c.isDigit = true
  value : digitsValue ds = n

/-- A year is written in up to four digits, or in any number of them behind a sign. -/
inductive WritesYear : Int → List Char → Prop where
  | plain {n : Nat} {ds : List Char} : Writes 4 n ds → WritesYear n ds
  | plus {n : Nat} {ds : List Char} : Writes ds.length n ds → WritesYear n ('+' :: ds)
  | minus {n : Nat} {ds : List Char} : Writes ds.length n ds → WritesYear (-n) ('-' :: ds)

section
variable {width n : Nat} {y : Int} {cs ds rest : List Char}

theorem Writes.mono {width' : Nat} (h : Writes width n ds) (hWidth : width ≤ width') :
    Writes width' n ds :=
  { h with length_le := Nat.le_trans h.length_le hWidth }

theorem Writes.exists_cons (h : Writes width n ds) :
    ∃ c cs, ds = c :: cs ∧ c.isDigit = true := by
  obtain ⟨c, cs, rfl⟩ := List.exists_cons_of_ne_nil h.ne_nil
  exact ⟨c, cs, rfl, h.isDigit c List.mem_cons_self⟩

theorem Writes.trimStart_append (h : Writes width n ds) :
    trimStart (ds ++ rest) = ds ++ rest := by
  obtain ⟨c, cs, rfl, hc⟩ := h.exists_cons
  exact trimStart_cons (isBlank_of_isDigit hc) _

theorem WritesYear.trimStart_append (h : WritesYear y ds) :
    trimStart (ds ++ rest) = ds ++ rest := by
  cases h with
  | plain h => exact h.trimStart_append
  | plus _ => exact trimStart_cons rfl _
  | minus _ => exact trimStart_cons rfl _

theorem readDigits?_append (h : Writes width n ds) (hRest : EndsDigits rest) :
    readDigits? width (ds ++ rest) = some (n, rest) := by
  have hDigits : ((ds ++ rest).take width).takeWhile Char.isDigit = ds := by
    rw [List.take_append, List.take_of_length_le h.length_le]
    exact takeWhile_isDigit_append h.isDigit (hRest.take _)
  rw [readDigits?, hDigits, if_neg (by simpa using h.ne_nil), h.value, List.drop_left]

theorem readAllDigits?_append (h : Writes ds.length n ds) (hRest : EndsDigits rest) :
    readAllDigits? (ds ++ rest) = some (n, rest) := by
  refine readDigits?_append (h.mono ?_) hRest
  rw [List.length_append]
  exact Nat.le_add_right ..

theorem exists_writes_of_readDigits? (h : readDigits? width cs = some (n, rest)) :
    ∃ ds, Writes width n ds ∧ cs = ds ++ rest := by
  obtain ⟨hNonempty, h⟩ := Option.ite_none_left_eq_some.mp h
  cases h
  have hPrefix : (cs.take width).takeWhile Char.isDigit <+: cs :=
    (List.takeWhile_prefix _).trans (List.take_prefix width cs)
  refine ⟨_, ⟨by simpa using hNonempty, ?_, ?_, rfl⟩, (List.prefix_iff_eq_append.mp hPrefix).symm⟩
  · exact Nat.le_trans (List.takeWhile_prefix _).length_le (List.length_take_le ..)
  · exact List.all_eq_true.mp List.all_takeWhile

theorem readYear?_of_readDigits? (h : readDigits? 4 cs = some (n, rest)) :
    readYear? cs = some ((n : Int), rest) := by
  obtain ⟨ds, hWrites, hText⟩ := exists_writes_of_readDigits? h
  obtain ⟨c, ds, rfl, hDigit⟩ := hWrites.exists_cons
  unfold readYear?
  split
  · cases hText
    cases hDigit
  · cases hText
    cases hDigit
  · rw [h]
    rfl

theorem readYear?_append (h : WritesYear y ds) (hRest : EndsDigits rest) :
    readYear? (ds ++ rest) = some (y, rest) := by
  cases h with
  | plus h =>
    rw [List.cons_append, readYear?, readAllDigits?_append h hRest]
    rfl
  | minus h =>
    rw [List.cons_append, readYear?, readAllDigits?_append h hRest]
    rfl
  | plain h => exact readYear?_of_readDigits? (readDigits?_append h hRest)

theorem readDigits?_trimStart (h : Writes width n ds) (hRest : EndsDigits rest) :
    readDigits? width (trimStart (ds ++ rest)) = some (n, rest) := by
  rw [h.trimStart_append, readDigits?_append h hRest]

theorem readYear?_trimStart (h : WritesYear y ds) (hRest : EndsDigits rest) :
    readYear? (trimStart (ds ++ rest)) = some (y, rest) := by
  rw [h.trimStart_append, readYear?_append h hRest]

theorem readFixedDigits?_append (h : Writes width n ds) (hLength : ds.length = width) :
    readFixedDigits? width (ds ++ rest) = some (n, rest) := by
  have hDigits : ((ds ++ rest).take width).takeWhile Char.isDigit = ds := by
    have hAll := takeWhile_isDigit_append h.isDigit endsDigits_nil
    rw [List.append_nil] at hAll
    rw [List.take_left' hLength, hAll]
  rw [readFixedDigits?, hDigits, if_pos hLength, h.value, List.drop_left' hLength]

theorem readDigits?_of_readFixedDigits? (hWidth : 0 < width)
    (h : readFixedDigits? width cs = some (n, rest)) : readDigits? width cs = some (n, rest) := by
  obtain ⟨hLength, h⟩ := Option.ite_none_right_eq_some.mp h
  rw [readDigits?, if_neg, hLength]
  · exact h
  · rw [List.isEmpty_iff_length_eq_zero, hLength]
    exact Nat.ne_of_gt hWidth

theorem trimStart_of_readFixedDigits? (hWidth : 0 < width)
    (h : readFixedDigits? width cs = some (n, rest)) : trimStart cs = cs := by
  obtain ⟨ds, hWrites, rfl⟩ :=
    exists_writes_of_readDigits? (readDigits?_of_readFixedDigits? hWidth h)
  exact hWrites.trimStart_append

theorem readDigits?_trimStart_of_fixed (h : readFixedDigits? 2 cs = some (n, rest)) :
    readDigits? 2 (trimStart cs) = some (n, rest) := by
  rw [trimStart_of_readFixedDigits? (by decide) h, readDigits?_of_readFixedDigits? (by decide) h]

theorem readYear?_trimStart_of_fixed (h : readFixedDigits? 4 cs = some (n, rest)) :
    readYear? (trimStart cs) = some ((n : Int), rest) := by
  rw [trimStart_of_readFixedDigits? (by decide) h]
  exact readYear?_of_readDigits? (readDigits?_of_readFixedDigits? (by decide) h)

theorem skipColons_append (h : Writes width n ds) : skipColons (ds ++ rest) = ds ++ rest := by
  obtain ⟨c, ds, rfl, hDigit⟩ := h.exists_cons
  have hColon : c ≠ ':' := by
    rintro rfl
    cases hDigit
  simp [skipColons, isBlank_of_isDigit hDigit, hColon]

theorem exists_of_readOneOf? {allowed : List Char} (h : readOneOf? allowed cs = some rest) :
    ∃ c ∈ allowed, cs = c :: rest := by
  cases cs with
  | nil => cases h
  | cons c cs =>
    obtain ⟨hc, h⟩ := Option.ite_none_right_eq_some.mp h
    cases h
    exact ⟨c, List.contains_iff_mem.mp hc, rfl⟩

theorem eq_cons_of_readOneOf? {c : Char} (h : readOneOf? [c] cs = some rest) : cs = c :: rest := by
  obtain ⟨d, hd, rfl⟩ := exists_of_readOneOf? h
  rw [List.mem_singleton.mp hd]

variable {separator : Char} {f : Fields} {month day hour minute second nanos : Nat}
  {cs₁ cs₂ cs₃ : List Char}

theorem scan?_yearMonthDay_of_reads
    (hYear : readYear? (trimStart cs) = some (y, separator :: cs₁))
    (hMonth : readDigits? 2 (trimStart cs₁) = some (month, separator :: cs₂))
    (hDay : readDigits? 2 (trimStart cs₂) = some (day, rest)) :
    (yearMonthDay separator).scan? cs f =
      some (rest, { f with year := y, month := month, day := day }) := by
  simp only [yearMonthDay, Pattern.scan?, Item.read?, hYear, hMonth, hDay, if_true,
    Option.map_some, Option.bind_some]

theorem scan?_hourMinute_of_reads
    (hHour : readDigits? 2 (trimStart cs) = some (hour, ':' :: cs₁))
    (hMinute : readDigits? 2 (trimStart cs₁) = some (minute, rest)) :
    hourMinute.scan? cs f = some (rest, { f with hour := hour, minute := minute }) := by
  simp only [hourMinute, Pattern.scan?, Item.read?, hHour, hMinute, if_true, Option.map_some,
    Option.bind_some]

theorem scan?_hourMinuteSecond_of_reads
    (hHour : readDigits? 2 (trimStart cs) = some (hour, ':' :: cs₁))
    (hMinute : readDigits? 2 (trimStart cs₁) = some (minute, ':' :: cs₂))
    (hSecond : readDigits? 2 (trimStart cs₂) = some (second, cs₃))
    (hNanos : readFraction? cs₃ = some (nanos, rest)) :
    hourMinuteSecond.scan? cs f =
      some (rest, { f with hour := hour, minute := minute, second := second, nanos := nanos }) := by
  rw [hourMinuteSecond, Pattern.scan?_append, scan?_hourMinute_of_reads hHour hMinute]
  simp only [Pattern.scan?, Item.read?, hSecond, hNanos, if_true, Option.map_some, Option.bind_some]

end

end Calendar

end RecordFilter
