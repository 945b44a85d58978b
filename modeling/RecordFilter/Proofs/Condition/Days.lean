import RecordFilter.Proofs.Calendar.Written
import RecordFilter.Proofs.Condition.Complement
import RecordFilter.Proofs.Condition.Ordered

/-!
# Filters by day

A date filter whose operand is a date without a time looks at the UTC date of an instant alone. Each
mode compares that date with the one of the operand, and a range holds of the dates from its first
to its last, both included.
-/

namespace RecordFilter

open Calendar

/-- How a mode compares the date of an instant with that of its operand. -/
def Mode.dateComparison? : Mode → Option Comparison
  | notEqual => some .ne
  | mode => mode.order?

namespace Scalar

variable {d : Date} {text : String}

theorem readDate_of_writtenAs (hDate : d.isValid = true) (hText : d.WrittenAs text) :
    readDate text = .ok (.ofDate d) :=
  readDate_eq_ok_iff.mpr (readDateSpan?_of_writtenAs hDate hText)

theorem names_of_writtenAs (hDate : d.isValid = true) (hText : d.WrittenAs text) :
    (Scalar.text text).Names .date (.span (.ofDate d)) :=
  .span (.inl rfl) (readDate_of_writtenAs hDate hText)

theorem Names.eq_of_date {x : Scalar} {p q : Pivot} (hp : x.Names .date p)
    (hq : x.Names .date q) : q = p := by
  obtain ⟨s, rfl, hs⟩ := hp.exists_span (.inl rfl)
  obtain ⟨s', rfl, hs'⟩ := hq.exists_span (.inl rfl)
  rw [Except.ok.inj (hs.symm.trans hs')]

end Scalar

theorem Pivot.side?_ofDate {d : Date} (h : d.OnCalendar) {t : Instant}
    (hNanos : t.nanos < 1000000000) :
    (span (.ofDate d)).side? .date (.timestamp t) = some (t.date.order d) :=
  congrArg some (Span.side_ofDate h hNanos)

namespace FieldFilter

variable {d last : Date} {field text text' : String} {mode : Mode} {op : Comparison}

theorem exists_compile_date (hDate : d.isValid = true) (hText : d.WrittenAs text) (field : String)
    (hOp : mode.order? = some op) :
    ∃ c, (scalar field .date mode (.text text)).compile .timestamp = .ok c ∧
      ∀ t : Instant, t.nanos < 1000000000 →
        c.matchesValue (.timestamp t) = op.holds (t.date.order d) := by
  have hNames := Scalar.names_of_writtenAs hDate hText
  have hSupports : mode.supports .date = true := by cases mode <;> cases hOp <;> rfl
  obtain ⟨c, hc⟩ : ∃ c, mode.spanCondition? (.ofDate d) = some c := by
    cases mode <;> cases hOp <;> exact ⟨_, rfl⟩
  refine ⟨⟨.date, .identity, c⟩, (compile_scalar_eq_ok_iff (.inr (.inl rfl)) hOp).mpr
    ⟨hSupports, rfl, rfl, _, hNames, hc⟩, fun t hNanos => ?_⟩
  rw [Pivot.matchesValue_condition? hNames hOp hc,
    Pivot.side?_ofDate (Date.onCalendar_of_isValid hDate) hNanos]
  rfl

theorem exists_between?_of_compile_dates (hDate : d.isValid = true) (hText : d.WrittenAs text)
    (hLast : last.isValid = true) (hText' : last.WrittenAs text') {c : CompiledCondition}
    (h : (between field .date (.text text) (.text text')).compile .timestamp = .ok c) :
    c.dataType = .date ∧
      (Pivot.span (.ofDate d)).between? (.span (.ofDate last)) = some c.condition := by
  obtain ⟨-, hType, p, q, hp, hq, hBetween⟩ := (compile_between_eq_ok_iff (.inr (.inl rfl))).mp h
  obtain rfl := (Scalar.names_of_writtenAs hDate hText).eq_of_date hp
  obtain rfl := (Scalar.names_of_writtenAs hLast hText').eq_of_date hq
  exact ⟨hType, hBetween⟩

theorem exists_compile_dates_iff (hDate : d.isValid = true) (hText : d.WrittenAs text)
    (hLast : last.isValid = true) (hText' : last.WrittenAs text') (field : String) :
    (∃ c, (between field .date (.text text) (.text text')).compile .timestamp = .ok c) ↔
      d.order last ≠ .gt := by
  rw [Ne, ← Span.stop_le_start_ofDate_iff (Date.onCalendar_of_isValid hDate)
    (Date.onCalendar_of_isValid hLast)]
  constructor
  · rintro ⟨c, hc⟩
    obtain ⟨-, hBetween⟩ := exists_between?_of_compile_dates hDate hText hLast hText' hc
    exact (Option.ite_none_left_eq_some.mp hBetween).1
  · intro h
    exact ⟨⟨.date, .identity, _⟩, (compile_between_eq_ok_iff (.inr (.inl rfl))).mpr
      ⟨rfl, rfl, _, _, Scalar.names_of_writtenAs hDate hText,
        Scalar.names_of_writtenAs hLast hText', if_neg h⟩⟩

theorem matchesValue_dates (hDate : d.isValid = true) (hText : d.WrittenAs text)
    (hLast : last.isValid = true) (hText' : last.WrittenAs text') {c : CompiledCondition}
    (h : (between field .date (.text text) (.text text')).compile .timestamp = .ok c)
    {t : Instant} (hNanos : t.nanos < 1000000000) :
    c.matchesValue (.timestamp t) = true ↔ t.date.order d ≠ .lt ∧ t.date.order last ≠ .gt := by
  obtain ⟨hType, hBetween⟩ := exists_between?_of_compile_dates hDate hText hLast hText' h
  obtain ⟨t', projection, condition⟩ := c
  obtain rfl : t' = .date := hType
  obtain ⟨low, high, hLow, hHigh, hBoth⟩ :=
    Pivot.matchesValue_between? (t := .date) hBetween projection
  have hFirst := Scalar.names_of_writtenAs hDate hText
  have hSecond := Scalar.names_of_writtenAs hLast hText'
  rw [hBoth, Pivot.matchesValue_condition? hFirst rfl hLow,
    Pivot.matchesValue_condition? hSecond rfl hHigh,
    Pivot.side?_ofDate (Date.onCalendar_of_isValid hDate) hNanos,
    Pivot.side?_ofDate (Date.onCalendar_of_isValid hLast) hNanos]
  simp [Comparison.holds]

/-- Every date can be written with each separator. However a date is written, each mode compares the
date of an instant with it; a range compiles if its first date is not after its last, and holds of
the dates from the one to the other; the next date begins where it ends. -/
theorem date_filters_compare_dates (hDate : d.isValid = true) (hText : d.WrittenAs text)
    (field : String) :
    (∀ separator ∈ dateSeparators, d.WrittenAs (d.text separator)) ∧
    (∀ mode op, mode.dateComparison? = some op →
      ∃ c, (scalar field .date mode (.text text)).compile .timestamp = .ok c ∧
        ∀ t : Instant, t.nanos < 1000000000 →
          c.matchesValue (.timestamp t) = op.holds (t.date.order d)) ∧
    (∀ (last : Date) (text' : String), last.isValid = true → last.WrittenAs text' →
      ((∃ c, (between field .date (.text text) (.text text')).compile .timestamp = .ok c) ↔
        d.order last ≠ .gt) ∧
      ∀ c, (between field .date (.text text) (.text text')).compile .timestamp = .ok c →
        ∀ t : Instant, t.nanos < 1000000000 →
          (c.matchesValue (.timestamp t) = true ↔
            t.date.order d ≠ .lt ∧ t.date.order last ≠ .gt)) ∧
    ∃ span, Scalar.readDate text = .ok span ∧
      ∀ text', d.next.isValid = true → d.next.WrittenAs text' →
        ∃ span', Scalar.readDate text' = .ok span' ∧ span'.start = span.stop := by
  have hCalendar := Date.onCalendar_of_isValid hDate
  refine ⟨fun _ => Date.writtenAs_text hCalendar, ?_, ?_, ?_⟩
  · intro mode op hOp
    cases mode with
    | notEqual =>
      cases hOp
      have hOrder : Mode.equal.order? = some .eq := rfl
      obtain ⟨equal, hEqual, hMatches⟩ := exists_compile_date hDate hText field hOrder
      obtain ⟨c, hc, hComplement⟩ := exists_compile_complement rfl hEqual
      refine ⟨c, hc, fun t hNanos => ?_⟩
      rw [hComplement, hMatches t hNanos, Comparison.holds_ne]
    | _ => exact exists_compile_date hDate hText field hOp
  · intro last text' hLast hText'
    exact ⟨exists_compile_dates_iff hDate hText hLast hText' field,
      fun c hc t => matchesValue_dates hDate hText hLast hText' hc⟩
  · refine ⟨.ofDate d, Scalar.readDate_of_writtenAs hDate hText, fun text' hNext hText' => ?_⟩
    exact ⟨.ofDate d.next, Scalar.readDate_of_writtenAs hNext hText',
      (Span.stop_ofDate hCalendar).symm⟩

def leapDay : Date := ⟨-4, 2, 29⟩

def newYear : Date := ⟨0, 1, 1⟩

theorem writtenAs_leapDay : leapDay.WrittenAs "-0004.2.29" := by
  refine ⟨'.', by decide, ['-', '0', '0', '0', '4'], ['2'], ['2', '9'], ?_, ?_, ?_, ?_⟩
  · exact .minus (n := 4) ⟨by decide, by decide, List.all_eq_true.mp rfl, rfl⟩
  · exact ⟨by decide, by decide, List.all_eq_true.mp rfl, rfl⟩
  · exact ⟨by decide, by decide, List.all_eq_true.mp rfl, rfl⟩
  · decide +kernel

theorem writtenAs_newYear : newYear.WrittenAs " +00000/01/1" := by
  refine ⟨'/', by decide, ['+', '0', '0', '0', '0', '0'], ['0', '1'], ['1'], ?_, ?_, ?_, ?_⟩
  · exact .plus (n := 0) ⟨by decide, by decide, List.all_eq_true.mp rfl, rfl⟩
  · exact ⟨by decide, by decide, List.all_eq_true.mp rfl, rfl⟩
  · exact ⟨by decide, by decide, List.all_eq_true.mp rfl, rfl⟩
  · decide +kernel

/-- The end of the leap day's last second, and a nanosecond after the end of the new year's day. -/
theorem days_from_leap_day :
    (∃ c, (scalar "at" .date .after (.text "-0004.2.29")).compile .timestamp = .ok c ∧
      c.matchesValue (.timestamp { seconds := -62288265601, nanos := 999999999 }) = false) ∧
    ∃ c, (between "at" .date (.text "-0004.2.29") (.text " +00000/01/1")).compile .timestamp =
        .ok c ∧
      c.matchesValue (.timestamp { seconds := -62288265601, nanos := 999999999 }) = true ∧
      ¬ c.matchesValue (.timestamp { seconds := -62167132800, nanos := 1 }) = true := by
  have hLeap := Date.onCalendar_of_isValid (d := leapDay) (by decide)
  have hNew := Date.onCalendar_of_isValid (d := newYear) (by decide)
  obtain ⟨-, hModes, hRanges, -⟩ :=
    date_filters_compare_dates (d := leapDay) (by decide) writtenAs_leapDay "at"
  obtain ⟨hCompiles, hMatches⟩ := hRanges newYear _ (by decide) writtenAs_newYear
  constructor
  · obtain ⟨c, hc, hAfter⟩ := hModes .after .gt rfl
    refine ⟨c, hc, ?_⟩
    rw [hAfter _ (by decide), Instant.date_order hLeap]
    decide
  · obtain ⟨c, hc⟩ := hCompiles.mpr (by decide)
    refine ⟨c, hc, ?_, ?_⟩
    · rw [hMatches c hc _ (by decide), Instant.date_order hLeap, Instant.date_order hNew]
      decide
    · rw [hMatches c hc _ (by decide), Instant.date_order hLeap, Instant.date_order hNew]
      decide

end FieldFilter

end RecordFilter
