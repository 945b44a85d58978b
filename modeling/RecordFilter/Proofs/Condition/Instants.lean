import RecordFilter.Proofs.Calendar.DateTime
import RecordFilter.Proofs.Condition.Ordered

/-!
# Filters by instant

A date-time stands for one microsecond: that of its instant in a date filter, that of its UTC time
of day in a time filter. So a filter depends on the instant alone, not on the notation or on the
offset in which it is written.
-/

namespace RecordFilter

open Calendar

namespace FieldFilter

variable {type : DataType} {x y low low' high high' : Scalar} {kind : ColumnKind} {s : Span}

theorem names_iff_of_temporal (ht : type = .date ∨ type = .time) {p : Pivot} :
    x.Names type p ↔ ∃ s, p = .span s ∧ x.readSpan type = .ok s := by
  constructor
  · exact fun h => h.exists_span ht
  · rintro ⟨s, rfl, hs⟩
    exact .span ht hs

theorem compile_scalar_congr (ht : type = .date ∨ type = .time) (hx : x.readSpan type = .ok s)
    (hy : y.readSpan type = .ok s) (field : String) (mode : Mode) :
    (scalar field type mode x).compile kind = (scalar field type mode y).compile kind := by
  have hRead {v : Scalar} (hv : v.readSpan type = .ok s) :
      (scalar field type mode v).readSpan v = .ok s := by
    rw [readSpan_eq]
    exact reading_eq_ok_iff.mpr hv
  have hTemporal : (scalar field type mode x).compileTemporal =
      (scalar field type mode y).compileTemporal := by
    by_cases hMode : mode = .range
    · subst hMode
      rfl
    · have hNoRange {v : Scalar} : (scalar field type mode v).mode ≠ .range := hMode
      rw [compileTemporal, compileTemporal, if_neg hNoRange, if_neg hNoRange]
      change ((scalar field type mode x).readSpan x >>= _) =
        ((scalar field type mode y).readSpan y >>= _)
      rw [hRead hx, hRead hy]
      rfl
  have hValue : (scalar field type mode x).compileValue =
      (scalar field type mode y).compileValue := by
    rcases ht with rfl | rfl <;> exact hTemporal
  rw [compile, compile, hValue]
  rfl

theorem compile_between_congr (ht : type = .date ∨ type = .time)
    (hLow : low.readSpan type = low'.readSpan type)
    (hHigh : high.readSpan type = high'.readSpan type) (field : String) {c : CompiledCondition} :
    (between field type low high).compile kind = .ok c ↔
      (between field type low' high').compile kind = .ok c := by
  simp only [compile_between_eq_ok_iff (.inr ht), names_iff_of_temporal ht, hLow, hHigh]

end FieldFilter

namespace Scalar

theorem readSpan_date (text : String) : (Scalar.text text).readSpan .date = readDate text := by
  rw [readSpan, if_neg (by decide)]

theorem readSpan_time (text : String) : (Scalar.text text).readSpan .time = readTime text := by
  rw [readSpan, if_pos rfl]

end Scalar

namespace DateTime

variable {t t' : DateTime} {offset offset' : Int} {text text' : String} {type : DataType}

theorem WrittenAs.readDate (h : t.WrittenAs offset text) :
    Scalar.readDate text = .ok (.instant (t.micros offset)) := by
  obtain ⟨i, hRead, hMicros⟩ := h.exists_hasReading
  rw [Scalar.readDate_eq_ok_iff, hRead.readDateSpan?_instant, hMicros]

theorem WrittenAs.readTime (h : t.WrittenAs offset text) :
    Scalar.readTime text = .ok (.instant (t.micros offset % microsPerDay)) := by
  obtain ⟨i, hRead, hMicros⟩ := h.exists_hasReading
  rw [Scalar.readTime_eq_ok_iff, hRead.readTimeSpan?_instant, Instant.timeOfDay, hMicros]

theorem WrittenAs.exists_readSpan (h : t.WrittenAs offset text) (h' : t'.WrittenAs offset' text')
    (hSame : t'.micros offset' = t.micros offset) (ht : type = .date ∨ type = .time) :
    ∃ s, (Scalar.text text').readSpan type = .ok s ∧ (Scalar.text text).readSpan type = .ok s := by
  rcases ht with rfl | rfl
  · simp only [Scalar.readSpan_date]
    exact ⟨_, hSame ▸ h'.readDate, h.readDate⟩
  · simp only [Scalar.readSpan_time]
    exact ⟨_, hSame ▸ h'.readTime, h.readTime⟩

open FieldFilter

/-- A date-time is read as the microsecond of its fields less its offset, in whatever notation it is
written and with blanks around it, and as a time it is read as the time of day of that microsecond.
The days are those from the start of 1970 to its date, one by one. Two texts with the same
microsecond compile alike, as an operand and as either end of a range. -/
theorem written_date_times_name_instants (h : t.WrittenAs offset text) :
    Date.ofDayNumber t.date.dayNumber = t.date ∧
    Scalar.readDate text = .ok (.instant (t.micros offset)) ∧
    Scalar.readTime text = .ok (.instant (t.micros offset % microsPerDay)) ∧
    (0 ≤ t.micros offset % microsPerDay ∧ t.micros offset % microsPerDay < microsPerDay) ∧
    ∀ (t' : DateTime) (offset' : Int) (text' : String), t'.WrittenAs offset' text' →
      t'.micros offset' = t.micros offset →
      ∀ type : DataType, type = .date ∨ type = .time → ∀ (field : String) (kind : ColumnKind),
        (∀ mode, (scalar field type mode (.text text')).compile kind =
          (scalar field type mode (.text text)).compile kind) ∧
        ∀ (other : Scalar) (c : CompiledCondition),
          ((between field type (.text text') other).compile kind = .ok c ↔
            (between field type (.text text) other).compile kind = .ok c) ∧
          ((between field type other (.text text')).compile kind = .ok c ↔
            (between field type other (.text text)).compile kind = .ok c) := by
  refine ⟨Date.ofDayNumber_dayNumber t.onCalendar, h.readDate, h.readTime, ?_, ?_⟩
  · exact ⟨Int.emod_nonneg _ (by decide), Int.emod_lt_of_pos _ (by decide)⟩
  · intro t' offset' text' h' hSame type ht field kind
    obtain ⟨s, hRead', hRead⟩ := h.exists_readSpan h' hSame ht
    refine ⟨fun mode => compile_scalar_congr ht hRead' hRead field mode, fun other c => ⟨?_, ?_⟩⟩
    · exact compile_between_congr ht (hRead'.trans hRead.symm) rfl field
    · exact compile_between_congr ht rfl (hRead'.trans hRead.symm) field

def lastOf1969 : DateTime where
  date := ⟨1969, 12, 31⟩
  hour := 23
  minute := 59
  second := 59
  fraction := "5000000005".toList
  onCalendar := Date.onCalendar_of_isValid rfl
  year_nonneg := by decide
  year_lt := by decide
  hour_lt := by decide
  minute_lt := by decide
  second_lt := by decide
  isDigit := List.all_eq_true.mp rfl

/-- The same instant five and a half hours ahead of UTC. -/
def aheadOf1969 : DateTime where
  date := ⟨1970, 1, 1⟩
  hour := 5
  minute := 29
  second := 59
  fraction := ['5']
  onCalendar := Date.onCalendar_of_isValid rfl
  year_nonneg := by decide
  year_lt := by decide
  hour_lt := by decide
  minute_lt := by decide
  second_lt := by decide
  isDigit := List.all_eq_true.mp rfl

theorem writtenAs_lastOf1969 : lastOf1969.WrittenAs 0 " 1969-12-31T23:59:59.5000000005Z" :=
  ⟨[' '], _, [], List.forall_mem_singleton.mpr rfl, nofun, .zulu .letter, by decide +kernel⟩

theorem writtenAs_aheadOf1969 : aheadOf1969.WrittenAs 19800 "1970-01-01 05:29:59.5+0530" :=
  ⟨[], _, [], nofun, nofun, @Notates.offset aheadOf1969 ' ' '+' false 5 30 [] .space .plus
    (by decide) (by decide) (.inr rfl), by decide +kernel⟩

/-- Written with `Z` and a space in front, and with an offset without a colon. -/
theorem one_filter_for_lastOf1969 :
    Scalar.readDate " 1969-12-31T23:59:59.5000000005Z" = .ok (.instant (-500000)) ∧
    Scalar.readTime " 1969-12-31T23:59:59.5000000005Z" = .ok (.instant 86399500000) ∧
    (scalar "at" .date .before (.text "1970-01-01 05:29:59.5+0530")).compile .timestamp =
      (scalar "at" .date .before (.text " 1969-12-31T23:59:59.5000000005Z")).compile .timestamp := by
  obtain ⟨-, hDate, hTime, -, hSame⟩ := written_date_times_name_instants writtenAs_lastOf1969
  have hMicros : lastOf1969.micros 0 = -500000 := by decide
  have hAhead : aheadOf1969.micros 19800 = lastOf1969.micros 0 := by decide
  have hDay : (-500000 : Int) % microsPerDay = 86399500000 := by decide
  rw [hMicros] at hDate hTime
  rw [hDay] at hTime
  obtain ⟨hModes, -⟩ :=
    hSame _ _ _ writtenAs_aheadOf1969 hAhead .date (.inl rfl) "at" .timestamp
  exact ⟨hDate, hTime, hModes .before⟩

end DateTime

end RecordFilter
