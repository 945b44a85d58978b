import RecordFilter.Proofs.Calendar.DayNumber
import RecordFilter.Proofs.Calendar.Meaning
import RecordFilter.Value

/-!
# Spans within 64 bits

Dates lie between the first and the last day of their years. The calendar has so few years that all
microseconds in it, and the ends of all spans, fit in 64 bits: neither the count of an instant nor
the end of its span overflows. A time of day never leaves its day, not even in a leap second.
-/

namespace RecordFilter

def IsSigned64 (n : Int) : Prop := -2 ^ 63 ≤ n ∧ n < 2 ^ 63

instance (n : Int) : Decidable (IsSigned64 n) := inferInstanceAs (Decidable (_ ∧ _))

theorem Instant.noNanos_lt : 0 < 2000000000 := by decide

namespace Date

variable {y y' n : Int} {d : Date}

theorem daysBeforeYear_mono (h : y ≤ y') : daysBeforeYear y ≤ daysBeforeYear y' := by
  rcases Int.lt_or_eq_of_le h with hLess | rfl
  · have hYears := daysBeforeYear_add_le hLess
    omega
  · exact Int.le_refl _

theorem OnCalendar.daysBeforeYear_lt (h : d.OnCalendar) (hYear : y ≤ d.year) :
    daysBeforeYear y < d.dayNumber := by
  have hYears := daysBeforeYear_mono hYear
  have hDay := h.day_pos
  rw [dayNumber]
  omega

theorem OnCalendar.dayNumber_le (h : d.OnCalendar) (hYear : d.year ≤ y) :
    d.dayNumber ≤ daysBeforeYear (y + 1) := by
  have hYears := daysBeforeYear_add_le (Int.lt_add_one_of_le hYear)
  have hDay := h.dayOfYear_le
  rw [dayNumber]
  omega

theorem inRange_iff : inRange n = true ↔ -96465292 ≤ n ∧ n ≤ 95026236 := by
  have hFirst : firstDay = -96465292 := by decide
  have hLast : lastDay = 95026236 := by decide
  rw [inRange, hFirst, hLast, Bool.and_eq_true, decide_eq_true_eq, decide_eq_true_eq]

theorem inRange_dayNumber (h : d.isValid = true) : inRange d.dayNumber = true := by
  have hCalendar := onCalendar_of_isValid h
  simp only [isValid, Bool.and_eq_true, decide_eq_true_eq] at h
  have hFirst := hCalendar.daysBeforeYear_lt h.1.1.1.1.1
  have hLast := hCalendar.dayNumber_le h.1.1.1.1.2
  have hStart : daysBeforeYear firstYear = -96465293 := by decide
  have hEnd : daysBeforeYear (lastYear + 1) = 95026236 := by decide
  rw [inRange_iff]
  omega

def midnight (d : Date) : Instant where
  seconds := d.dayNumber * 86400
  nanos := 0
  nanos_lt := Instant.noNanos_lt

theorem midnight_micros (d : Date) : d.midnight.micros = d.dayNumber * microsPerDay := by
  simp only [midnight, Instant.micros, microsPerSecond, microsPerDay]
  omega

end Date

/-- Counting the microseconds of an instant stays within 64 bits at every step, and so does the next
one after them. -/
structure Instant.CountsIn64 (t : Instant) : Prop where
  seconds : IsSigned64 t.seconds
  scaled : IsSigned64 (t.seconds * microsPerSecond)
  micros : IsSigned64 t.micros
  next : IsSigned64 (t.micros + 1)

theorem Instant.countsIn64 {t : Instant} (h : Date.inRange (t.seconds / 86400) = true) :
    t.CountsIn64 := by
  obtain ⟨hFirst, hLast⟩ := Date.inRange_iff.mp h
  have hNanos := t.nanos_lt
  have hMicros : t.micros = t.seconds * 1000000 + (t.nanos / 1000 : Nat) := rfl
  have hScaled : t.seconds * microsPerSecond = t.seconds * 1000000 := rfl
  -- At most 8.4 of the 9.2 trillion seconds that 64 bits have room for are in use.
  constructor <;> unfold IsSigned64 <;> omega

namespace Calendar

variable {f : Fields} {text : String} {t : Instant} {d : Date}

theorem Fields.inRange_of_instant? (h : f.instant? = some t) :
    Date.inRange (t.seconds / 86400) = true := by
  obtain ⟨d, -, h⟩ := Option.bind_eq_some_iff.mp h
  obtain ⟨c, -, h⟩ := Option.bind_eq_some_iff.mp h
  obtain ⟨hBounds, h⟩ := Option.ite_none_right_eq_some.mp h
  obtain rfl := Option.some.inj h
  exact (Bool.and_eq_true_iff.mp hBounds).2

theorem HasReading.instant_countsIn64 (h : HasReading instantReaders text t) : t.CountsIn64 := by
  obtain ⟨r, hr, hRead⟩ := h
  obtain ⟨_, -, f, -, hInstant⟩ := readsBy_instantReaders r hr _ _ hRead
  exact Instant.countsIn64 (Fields.inRange_of_instant? hInstant)

theorem HasReading.date_isValid (h : HasReading dateReaders text d) : d.isValid = true := by
  obtain ⟨r, hr, hRead⟩ := h
  obtain ⟨_, -, f, -, hDate⟩ := readsBy_dateReaders r hr _ _ hRead
  obtain ⟨hValid, hDate⟩ := Option.ite_none_right_eq_some.mp hDate
  exact Option.some.inj hDate ▸ hValid

theorem midnight_countsIn64 (h : d.isValid = true) : d.midnight.CountsIn64 := by
  refine Instant.countsIn64 ?_
  have hDay : d.midnight.seconds / 86400 = d.dayNumber := Int.mul_ediv_cancel _ (by decide)
  rw [hDay]
  exact Date.inRange_dayNumber h

theorem isSigned64_stop_ofDate (h : d.isValid = true) : IsSigned64 (Span.ofDate d).stop := by
  have hDay := Date.inRange_iff.mp (Date.inRange_dayNumber h)
  have hStop : (Span.ofDate d).stop = d.dayNumber * 86400000000 + 86400000000 := rfl
  unfold IsSigned64
  omega

theorem timeOfDay_bounds (t : Instant) : 0 ≤ t.timeOfDay ∧ t.timeOfDay < microsPerDay :=
  Value.timeOfDayMicros?_range (v := .timestamp t) rfl

structure Span.Proper (s : Span) : Prop where
  start_lt_stop : s.start < s.stop
  start : IsSigned64 s.start
  stop : IsSigned64 s.stop

theorem proper_of_readDateSpan? {s : Span} (h : readDateSpan? text = some s) : s.Proper := by
  rcases hasReading_daySpanReaders_iff.mp (readDateSpan?_eq_some_iff.mp h) with
    ⟨t, ht, rfl⟩ | ⟨d, hd, rfl⟩
  · have hCounts := ht.instant_countsIn64
    exact ⟨Span.start_lt_stop_instant _, hCounts.micros, hCounts.next⟩
  · have hStart : (Span.ofDate d).start = d.midnight.micros := d.midnight_micros.symm
    have hCounts := midnight_countsIn64 hd.date_isValid
    exact ⟨Span.start_lt_stop_ofDate d, hStart ▸ hCounts.micros,
      isSigned64_stop_ofDate hd.date_isValid⟩

theorem Span.proper_instant {m : Int} (hStart : 0 ≤ m) (hStop : m < microsPerDay) :
    (Span.instant m).Proper := by
  have hDay : (microsPerDay : Int) = 86400000000 := rfl
  have hFirst : (Span.instant m).start = m := rfl
  have hNext : (Span.instant m).stop = m + 1 := rfl
  refine ⟨Span.start_lt_stop_instant m, ?_, ?_⟩ <;> unfold IsSigned64 <;> omega

theorem proper_of_readTimeSpan? {s : Span} (h : readTimeSpan? text = some s) : s.Proper := by
  rcases hasReading_timeSpanReaders_iff.mp (readTimeSpan?_eq_some_iff.mp h) with
    ⟨c, -, rfl⟩ | ⟨t, -, rfl⟩
  · exact Span.proper_instant c.micros_nonneg c.micros_lt
  · exact Span.proper_instant (timeOfDay_bounds t).1 (timeOfDay_bounds t).2

/-- The span of a date filter has something in it and does not overflow. It is a microsecond of a
date-time or a whole day, and then the text is a date alone. That of a time filter is a microsecond
of the day. There is one for every clock time and for every date-time of any year and offset. -/
theorem spans_stay_in_domain (text : String) :
    (∀ span, readDateSpan? text = some span →
      span.start < span.stop ∧ IsSigned64 span.start ∧ IsSigned64 span.stop ∧
      ((span.stop = span.start + 1 ∧
          ∃ t, HasReading instantReaders text t ∧ t.CountsIn64 ∧ span.start = t.micros) ∨
        (span.stop = span.start + microsPerDay ∧ (microsPerDay : Int) ∣ span.start ∧
          (∃ d, HasReading dateReaders text d ∧ d.midnight.CountsIn64 ∧
            span.start = d.midnight.micros) ∧
          ∀ t, ¬ HasReading instantReaders text t))) ∧
    (∀ span, readTimeSpan? text = some span →
      0 ≤ span.start ∧ span.stop = span.start + 1 ∧ span.stop ≤ microsPerDay) ∧
    (∀ d, HasReading dateReaders text d → readDateSpan? text = some (.ofDate d)) ∧
    (∀ c, HasReading clockReaders text c → readTimeSpan? text = some (.instant c.micros)) ∧
    ∀ t, HasReading instantReaders text t → t.CountsIn64 ∧
      readDateSpan? text = some (.instant t.micros) ∧
      readTimeSpan? text = some (.instant t.timeOfDay) := by
  refine ⟨fun span hSpan => ?_, fun span hSpan => ?_, fun _ hd => hd.readDateSpan?_date,
    fun _ hc => hc.readTimeSpan?_clock,
    fun _ ht => ⟨ht.instant_countsIn64, ht.readDateSpan?_instant, ht.readTimeSpan?_instant⟩⟩
  · rcases hasReading_daySpanReaders_iff.mp (readDateSpan?_eq_some_iff.mp hSpan) with
      ⟨t, ht, rfl⟩ | ⟨d, hd, rfl⟩
    · have hCounts := ht.instant_countsIn64
      exact ⟨Span.start_lt_stop_instant _, hCounts.micros, hCounts.next,
        .inl ⟨rfl, t, ht, hCounts, rfl⟩⟩
    · have hStart : (Span.ofDate d).start = d.midnight.micros := d.midnight_micros.symm
      have hCounts := midnight_countsIn64 hd.date_isValid
      refine ⟨Span.start_lt_stop_ofDate d, hStart ▸ hCounts.micros,
        isSigned64_stop_ofDate hd.date_isValid, .inr ⟨rfl, Int.dvd_mul_left .., ?_, ?_⟩⟩
      · exact ⟨d, hd, hCounts, hStart⟩
      · exact fun t ht => ht.not_date hd
  · rcases hasReading_timeSpanReaders_iff.mp (readTimeSpan?_eq_some_iff.mp hSpan) with
      ⟨c, -, rfl⟩ | ⟨t, -, rfl⟩
    · exact ⟨c.micros_nonneg, rfl, c.micros_lt⟩
    · exact ⟨(timeOfDay_bounds t).1, rfl, (timeOfDay_bounds t).2⟩

/-- The last leap second of the calendar, its first day, and a leap second of any day. -/
theorem spans_at_the_ends :
    (∃ span, readDateSpan? "+262142-12-31T23:59:60.999999999" = some span ∧
      span.start < span.stop ∧ IsSigned64 span.start ∧ IsSigned64 span.stop) ∧
    (∃ span, readDateSpan? "-262143-01-01" = some span ∧
      span.start < span.stop ∧ IsSigned64 span.start ∧ IsSigned64 span.stop) ∧
    ∃ span, readTimeSpan? "23:59:60.999999999" = some span ∧
      0 ≤ span.start ∧ span.stop = span.start + 1 ∧ span.stop ≤ microsPerDay := by
  refine ⟨?_, ?_, ?_⟩
  · have hRead : readDateSpan? "+262142-12-31T23:59:60.999999999" =
        some (.instant 8210266876800999999) := by decide +kernel
    obtain ⟨hLess, hStart, hStop, -⟩ := (spans_stay_in_domain _).1 _ hRead
    exact ⟨_, hRead, hLess, hStart, hStop⟩
  · have hRead : readDateSpan? "-262143-01-01" = some (.ofDate ⟨-262143, 1, 1⟩) := by
      decide +kernel
    obtain ⟨hLess, hStart, hStop, -⟩ := (spans_stay_in_domain _).1 _ hRead
    exact ⟨_, hRead, hLess, hStart, hStop⟩
  · have hRead : readTimeSpan? "23:59:60.999999999" = some (.instant 86399999999) := by
      decide +kernel
    exact ⟨_, hRead, (spans_stay_in_domain _).2.1 _ hRead⟩

end Calendar

end RecordFilter
