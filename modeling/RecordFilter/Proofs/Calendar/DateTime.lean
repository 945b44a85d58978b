import RecordFilter.Proofs.Calendar.Bounds
import RecordFilter.Proofs.Calendar.Written

/-!
# Written date-times

A date-time has a year of four digits and no leap second. It is written in UTC, with seconds or
without, or with its offset from UTC behind it. Whichever notation it is written in, it is read as
the instant of its fields less the offset, the fraction cut off at microseconds.
-/

namespace RecordFilter

open Calendar Text

/-- A date and a time of day, with the digits behind the point of the seconds. -/
structure DateTime where
  date : Date
  hour : Nat
  minute : Nat
  second : Nat
  fraction : List Char
  onCalendar : date.OnCalendar
  year_nonneg : 0 ≤ date.year
  year_lt : date.year < 10000
  hour_lt : hour < 24
  minute_lt : minute < 60
  second_lt : second < 60
  isDigit : ∀ c ∈ fraction, c.isDigit = true

def Calendar.fractionText : List Char → List Char
  | [] => []
  | ds => '.' :: ds

/-- The nanoseconds that digits behind a point stand for; more than nine do not count. -/
def Calendar.fractionNanos (ds : List Char) : Nat :=
  digitsValue (ds.take 9) * 10 ^ (9 - (ds.take 9).length)

inductive Calendar.OffsetSign : Bool → Char → Prop where
  | plus : OffsetSign false '+'
  | hyphen : OffsetSign true '-'
  | minus : OffsetSign true '\u2212'

def Calendar.offsetSeconds (behind : Bool) (hours minutes : Nat) : Int :=
  if behind then -((hours * 60 + minutes) * 60) else (hours * 60 + minutes) * 60

/-- Which mark may follow a date with the separator. -/
inductive Calendar.Follows : Char → Char → Prop where
  | letter : Follows '-' 'T'
  | space : Follows '-' ' '
  | spaceAfterSlashes : Follows '/' ' '

def Calendar.markItem (mark : Char) : Item := if mark = 'T' then .literal 'T' else .blanks

namespace DateTime

/-- The microseconds of the fields less an offset of so many seconds. The fraction is cut off, which
is toward the past before 1970 too. -/
def micros (t : DateTime) (offset : Int) : Int :=
  (((t.date.dayNumber * 24 + t.hour) * 60 + t.minute) * 60 + t.second - offset) * microsPerSecond +
    (digitsValue t.fraction * microsPerSecond / 10 ^ t.fraction.length : Nat)

def dateText (t : DateTime) (separator : Char) : List Char := (t.date.text separator).toList

def minuteText (t : DateTime) : List Char := padded 2 t.hour ++ ':' :: padded 2 t.minute

def clockText (t : DateTime) : List Char :=
  t.minuteText ++ ':' :: (padded 2 t.second ++ fractionText t.fraction)

/-- A text of the date-time at an offset from UTC. -/
inductive Notates (t : DateTime) : Int → List Char → Prop where
  | utc {separator mark : Char} (hMark : Follows separator mark) :
      Notates t 0 (t.dateText separator ++ mark :: t.clockText)
  | minutes {separator mark : Char} (hMark : Follows separator mark)
      (hSecond : t.second = 0) (hFraction : t.fraction = []) :
      Notates t 0 (t.dateText separator ++ mark :: t.minuteText)
  | zulu {mark : Char} (hMark : Follows '-' mark) :
      Notates t 0 (t.dateText '-' ++ mark :: (t.clockText ++ ['Z']))
  | offset {mark sign : Char} {behind : Bool} {hours minutes : Nat} {colon : List Char}
      (hMark : Follows '-' mark) (hSign : OffsetSign behind sign) (hHours : hours < 24)
      (hMinutes : minutes < 60) (hColon : colon = [':'] ∨ colon = []) :
      Notates t (offsetSeconds behind hours minutes) (t.dateText '-' ++
        mark :: (t.clockText ++ sign :: (padded 2 hours ++ (colon ++ padded 2 minutes))))

/-- The text has the date-time at an offset between blanks. -/
def WrittenAs (t : DateTime) (offset : Int) (text : String) : Prop :=
  ∃ before body after, (∀ c ∈ before, isBlank c = true) ∧ (∀ c ∈ after, isBlank c = true) ∧
    t.Notates offset body ∧ text.toList = before ++ body ++ after

def fields (t : DateTime) (offset : Int) : Fields where
  year := t.date.year
  month := t.date.month
  day := t.date.day
  hour := t.hour
  minute := t.minute
  second := t.second
  nanos := fractionNanos t.fraction
  offset := offset

end DateTime

namespace Calendar

variable {ds rest : List Char}

theorem fractionNanos_eq (h : ∀ c ∈ ds, c.isDigit = true) :
    fractionNanos ds = digitsValue ds * 10 ^ 9 / 10 ^ ds.length := by
  rw [fractionNanos]
  by_cases hShort : ds.length ≤ 9
  · have hPower : 10 ^ 9 = 10 ^ (9 - ds.length) * 10 ^ ds.length := by
      rw [← Nat.pow_add, Nat.sub_add_cancel hShort]
    rw [List.take_of_length_le hShort, hPower, ← Nat.mul_assoc,
      Nat.mul_div_cancel _ (Nat.pow_pos (by decide))]
  · have hCut : digitsValue ds / 10 ^ (ds.drop 9).length = digitsValue (ds.take 9) := by
      have hRest : ∀ c ∈ ds.drop 9, c.isDigit = true := fun c hc => h c (List.mem_of_mem_drop hc)
      have hAll := digitsValue_append_div (ds.take 9) hRest
      rwa [List.take_append_drop] at hAll
    have hLength : ds.length = (ds.drop 9).length + 9 := by
      rw [List.length_drop]
      omega
    rw [List.length_take_of_le (by omega), Nat.sub_self, Nat.pow_zero, Nat.mul_one, hLength,
      Nat.pow_add, Nat.mul_div_mul_right _ _ (by decide), hCut]

theorem fractionNanos_lt (h : ∀ c ∈ ds, c.isDigit = true) : fractionNanos ds < 1000000000 := by
  rw [fractionNanos_eq h, Nat.div_lt_iff_lt_mul (Nat.pow_pos (by decide)), Nat.mul_comm]
  exact Nat.mul_lt_mul_of_pos_left (digitsValue_lt h) (by decide)

theorem fractionNanos_div (h : ∀ c ∈ ds, c.isDigit = true) :
    fractionNanos ds / 1000 = digitsValue ds * microsPerSecond / 10 ^ ds.length := by
  have hPower : digitsValue ds * 10 ^ 9 = digitsValue ds * microsPerSecond * 1000 := by
    rw [Nat.mul_assoc]
    rfl
  rw [fractionNanos_eq h, Nat.div_div_eq_div_mul, hPower, Nat.mul_div_mul_right _ _ (by decide)]

def EndsFraction (rest : List Char) : Prop := ∀ c ∈ rest.head?, c.isDigit = false ∧ c ≠ '.'

theorem endsFraction_nil : EndsFraction [] := nofun

theorem endsFraction_cons {c : Char} (h : c.isDigit = false ∧ c ≠ '.') (cs : List Char) :
    EndsFraction (c :: cs) := by
  rintro d ⟨⟩
  exact h

theorem EndsFraction.endsDigits (h : EndsFraction rest) : EndsDigits rest := fun c hc => (h c hc).1

theorem endsDigits_fractionText (hRest : EndsFraction rest) :
    EndsDigits (fractionText ds ++ rest) := by
  cases ds with
  | nil => exact hRest.endsDigits
  | cons d ds => exact endsDigits_cons rfl _

theorem readFraction?_fractionText (h : ∀ c ∈ ds, c.isDigit = true) (hRest : EndsFraction rest) :
    readFraction? (fractionText ds ++ rest) = some (fractionNanos ds, rest) := by
  cases ds with
  | nil =>
    change readFraction? rest = some (0, rest)
    unfold readFraction?
    split
    · exact absurd rfl (hRest _ rfl).2
    · rfl
  | cons d ds =>
    have hNanos : ((d :: ds ++ rest).take 9).takeWhile Char.isDigit = (d :: ds).take 9 := by
      rw [List.take_append]
      exact takeWhile_isDigit_append (fun c hc => h c (List.mem_of_mem_take hc))
        (hRest.endsDigits.take _)
    have hSpan := congrArg Prod.snd (spanDigits_append_eq h hRest.endsDigits)
    change (d :: ds ++ rest).dropWhile Char.isDigit = rest at hSpan
    change readFraction? ('.' :: (d :: ds ++ rest)) = _
    simp only [readFraction?, hNanos, hSpan]
    rfl

end Calendar

namespace DateTime

variable {t : DateTime} {separator mark : Char} {rest body : List Char} {f : Fields} {offset : Int}

theorem hour_lt_hundred (t : DateTime) : t.hour < 100 := Nat.lt_trans t.hour_lt (by decide)

theorem minute_lt_hundred (t : DateTime) : t.minute < 100 := Nat.lt_trans t.minute_lt (by decide)

theorem second_lt_hundred (t : DateTime) : t.second < 100 := Nat.lt_trans t.second_lt (by decide)

theorem month_lt_hundred (t : DateTime) : t.date.month < 100 :=
  Nat.lt_of_le_of_lt t.onCalendar.month_le (by decide)

theorem day_lt_hundred (t : DateTime) : t.date.day < 100 :=
  Nat.lt_of_le_of_lt (Nat.le_trans t.onCalendar.day_le (Date.daysInMonth_le ..)) (by decide)

theorem dateText_append (t : DateTime) (separator : Char) (rest : List Char) :
    t.dateText separator ++ rest = yearText t.date.year ++
      separator :: (padded 2 t.date.month ++ separator :: (padded 2 t.date.day ++ rest)) := by
  simp only [dateText, Date.text, String.toList_ofList, List.append_assoc, List.cons_append]

theorem clockText_append (t : DateTime) (rest : List Char) :
    t.clockText ++ rest = padded 2 t.hour ++ ':' :: (padded 2 t.minute ++
      ':' :: (padded 2 t.second ++ (fractionText t.fraction ++ rest))) := by
  simp only [clockText, minuteText, List.append_assoc, List.cons_append]

theorem scan?_dateText (hSeparator : separator ∈ dateSeparators) (hRest : EndsDigits rest) :
    (yearMonthDay separator).scan? (t.dateText separator ++ rest) f = some (rest,
      { f with year := t.date.year, month := t.date.month, day := t.date.day }) := by
  rw [dateText_append]
  exact scan?_yearMonthDay hSeparator (writesYear_yearText _) (writes_two t.month_lt_hundred)
    (writes_two t.day_lt_hundred) hRest

theorem scan?_minuteText : hourMinute.scan? t.minuteText f =
    some ([], { f with hour := t.hour, minute := t.minute }) := by
  have hHour := readDigits?_trimStart (writes_two t.hour_lt_hundred)
    (endsDigits_cons (c := ':') rfl (padded 2 t.minute))
  have hMinute := readDigits?_trimStart (writes_two t.minute_lt_hundred) endsDigits_nil
  rw [List.append_nil] at hMinute
  exact scan?_hourMinute_of_reads hHour hMinute

theorem scan?_clockText (hRest : EndsFraction rest) :
    hourMinuteSecond.scan? (t.clockText ++ rest) f = some (rest,
      { f with hour := t.hour, minute := t.minute, second := t.second,
               nanos := fractionNanos t.fraction }) := by
  rw [clockText_append]
  exact scan?_hourMinuteSecond_of_reads
    (readDigits?_trimStart (writes_two t.hour_lt_hundred) (endsDigits_cons rfl _))
    (readDigits?_trimStart (writes_two t.minute_lt_hundred) (endsDigits_cons rfl _))
    (readDigits?_trimStart (writes_two t.second_lt_hundred) (endsDigits_fractionText hRest))
    (readFraction?_fractionText t.isDigit hRest)

theorem read?_markItem (hMark : Follows separator mark) (hRest : trimStart rest = rest) :
    (markItem mark).read? (mark :: rest) f = some (rest, f) := by
  have hBlank : some (trimStart rest, f) = some (rest, f) := by rw [hRest]
  cases hMark with
  | letter => rfl
  | space => exact hBlank
  | spaceAfterSlashes => exact hBlank

theorem scan?_dateText_mark (hMark : Follows separator mark)
    (hRest : trimStart rest = rest) (p : Pattern) :
    Pattern.scan? (yearMonthDay separator ++ markItem mark :: p)
        (t.dateText separator ++ mark :: rest) {} =
      p.scan? rest { year := t.date.year, month := t.date.month, day := t.date.day } := by
  obtain ⟨hSeparator, hEnds⟩ : separator ∈ dateSeparators ∧ mark.isDigit = false := by
    cases hMark <;> decide
  simp only [Pattern.scan?_append, scan?_dateText hSeparator (endsDigits_cons hEnds rest),
    Pattern.scan?, read?_markItem hMark hRest, Option.bind_some]

theorem trimStart_clockText (t : DateTime) (rest : List Char) :
    trimStart (t.clockText ++ rest) = t.clockText ++ rest := by
  rw [clockText_append]
  exact (writes_two t.hour_lt_hundred).trimStart_append

theorem read?_clockText (hMark : Follows separator mark) :
    Pattern.read? (yearMonthDay separator ++ markItem mark :: hourMinuteSecond)
      (t.dateText separator ++ mark :: t.clockText) = some (t.fields 0) := by
  rw [Pattern.read?_eq_some_iff, ← List.append_nil t.clockText,
    scan?_dateText_mark hMark (t.trimStart_clockText []), scan?_clockText endsFraction_nil]
  rfl

theorem read?_minuteText (hMark : Follows separator mark) (hSecond : t.second = 0)
    (hFraction : t.fraction = []) :
    Pattern.read? (yearMonthDay separator ++ markItem mark :: hourMinute)
      (t.dateText separator ++ mark :: t.minuteText) = some (t.fields 0) := by
  have hTrim : trimStart t.minuteText = t.minuteText :=
    (writes_two t.hour_lt_hundred).trimStart_append
  rw [Pattern.read?_eq_some_iff, scan?_dateText_mark hMark hTrim, scan?_minuteText, fields,
    hSecond, hFraction]
  rfl

theorem readOffset?_text {sign : Char} {behind : Bool} {hours minutes : Nat} {colon : List Char}
    (hSign : OffsetSign behind sign) (hHours : hours < 24) (hMinutes : minutes < 60)
    (hColon : colon = [':'] ∨ colon = []) :
    readOffset? (fun cs => some (skipColons cs))
        (sign :: (padded 2 hours ++ (colon ++ padded 2 minutes))) =
      some (offsetSeconds behind hours minutes, []) := by
  have hRead (rest : List Char) : readSign? (sign :: rest) = some (behind, rest) := by
    cases hSign <;> rfl
  have hHours : hours < 100 := Nat.lt_trans hHours (by decide)
  have hMinute : minutes < 100 := Nat.lt_trans hMinutes (by decide)
  have hSkip : skipColons (colon ++ padded 2 minutes) = padded 2 minutes ++ [] := by
    rw [← skipColons_append (writes_two hMinute), List.append_nil]
    rcases hColon with rfl | rfl <;> rfl
  simp only [readOffset?, hRead, readFixedDigits?_two hHours, hSkip, readFixedDigits?_two hMinute,
    if_neg (Nat.not_le_of_lt hMinutes), Option.bind_eq_bind, Option.bind_some]
  rfl

theorem read?_offset {sign : Char} {behind : Bool} {hours minutes : Nat} {colon : List Char}
    (hMark : Follows '-' mark) (hSign : OffsetSign behind sign) (hHours : hours < 24)
    (hMinutes : minutes < 60) (hColon : colon = [':'] ∨ colon = []) :
    Pattern.read? (yearMonthDay '-' ++ markItem mark :: (hourMinuteSecond ++ [.offset]))
        (t.dateText '-' ++
          mark :: (t.clockText ++ sign :: (padded 2 hours ++ (colon ++ padded 2 minutes)))) =
      some (t.fields (offsetSeconds behind hours minutes)) := by
  obtain ⟨hFraction, hBlank⟩ : (sign.isDigit = false ∧ sign ≠ '.') ∧ isBlank sign = false := by
    cases hSign <;> decide
  rw [Pattern.read?_eq_some_iff, scan?_dateText_mark hMark (t.trimStart_clockText _),
    Pattern.scan?_append, scan?_clockText (endsFraction_cons hFraction _)]
  simp only [Pattern.scan?, Item.read?, trimStart_cons hBlank,
    readOffset?_text hSign hHours hMinutes hColon, Option.map_some, Option.bind_some]
  rfl

theorem readRfc3339?_zulu (hMark : Follows '-' mark) :
    readRfc3339? (t.dateText '-' ++ mark :: (t.clockText ++ ['Z'])) = some (t.fields 0) := by
  have hYear (rest : List Char) : readFixedDigits? 4 (yearText t.date.year ++ rest) =
      some (t.date.year.toNat, rest) := by
    rw [yearText, if_pos ⟨t.year_nonneg, t.year_lt⟩]
    exact readFixedDigits?_padded (by decide) (by have := t.year_lt; omega)
  have hMark (rest : List Char) : readOneOf? ['T', 't', ' '] (mark :: rest) = some rest := by
    cases hMark <;> rfl
  have hFraction := readFraction?_fractionText t.isDigit
    (endsFraction_cons (c := 'Z') (by decide) [])
  rw [dateText_append, clockText_append]
  -- One step for each part of the text; what is a fixed character is read by computation.
  refine Option.bind_eq_some_iff.mpr ⟨_, hYear _, ?_⟩
  refine Option.bind_eq_some_iff.mpr ⟨_, rfl, ?_⟩
  refine Option.bind_eq_some_iff.mpr ⟨_, readFixedDigits?_two t.month_lt_hundred _, ?_⟩
  refine Option.bind_eq_some_iff.mpr ⟨_, rfl, ?_⟩
  refine Option.bind_eq_some_iff.mpr ⟨_, readFixedDigits?_two t.day_lt_hundred _, ?_⟩
  refine Option.bind_eq_some_iff.mpr ⟨_, hMark _, ?_⟩
  refine Option.bind_eq_some_iff.mpr ⟨_, readFixedDigits?_two t.hour_lt_hundred _, ?_⟩
  refine Option.bind_eq_some_iff.mpr ⟨_, rfl, ?_⟩
  refine Option.bind_eq_some_iff.mpr ⟨_, readFixedDigits?_two t.minute_lt_hundred _, ?_⟩
  refine Option.bind_eq_some_iff.mpr ⟨_, rfl, ?_⟩
  refine Option.bind_eq_some_iff.mpr ⟨_, readFixedDigits?_two t.second_lt_hundred _, ?_⟩
  refine Option.bind_eq_some_iff.mpr ⟨_, hFraction, ?_⟩
  refine Option.bind_eq_some_iff.mpr ⟨_, rfl, ?_⟩
  simp only [List.isEmpty_nil, if_true, fields, Int.toNat_of_nonneg t.year_nonneg]

theorem Notates.exists_reader (h : t.Notates offset body) :
    ∃ r ∈ instantReaders, r body = (t.fields offset).instant? := by
  have hReader {p : Pattern} {f : Fields} (hMem : p ∈ offsetPatterns ++ utcPatterns)
      (hRead : p.read? body = some f) : ∃ r ∈ instantReaders, r body = f.instant? := by
    refine ⟨_, List.mem_cons_of_mem _ (List.mem_map_of_mem hMem), ?_⟩
    rw [hRead, Option.bind_some]
  cases h with
  | @utc separator mark hMark =>
    refine hReader ?_ (read?_clockText hMark)
    cases hMark <;> decide +kernel
  | @minutes separator mark hMark hSecond hFraction =>
    refine hReader ?_ (read?_minuteText hMark hSecond hFraction)
    cases hMark <;> decide +kernel
  | zulu hMark =>
    refine ⟨_, List.mem_cons_self, ?_⟩
    rw [readRfc3339?_zulu hMark, Option.bind_some]
  | offset hMark hSign hHours hMinutes hColon =>
    refine hReader ?_ (read?_offset hMark hSign hHours hMinutes hColon)
    cases hMark <;> decide +kernel

theorem Notates.offset_lt (h : t.Notates offset body) : offset.natAbs < 86400 := by
  cases h with
  | utc hMark => decide
  | minutes hMark hSecond hFraction => decide
  | zulu hMark => decide
  | offset hMark hSign hHours hMinutes hColon =>
    unfold offsetSeconds
    split <;> omega

theorem isValid_date (t : DateTime) : t.date.isValid = true := by
  have hFirst : Date.firstYear ≤ t.date.year := Int.le_trans (by decide) t.year_nonneg
  have hLast : t.date.year ≤ Date.lastYear := Int.le_trans (Int.le_of_lt t.year_lt) (by decide)
  have hDate := t.onCalendar
  simp only [Date.isValid, Bool.and_eq_true, decide_eq_true_eq]
  exact ⟨⟨⟨⟨⟨hFirst, hLast⟩, hDate.month_pos⟩, hDate.month_le⟩, hDate.day_pos⟩, hDate.day_le⟩

theorem dayNumber_bounds (t : DateTime) :
    -719529 < t.date.dayNumber ∧ t.date.dayNumber ≤ 2932896 := by
  have hFirst := t.onCalendar.daysBeforeYear_lt t.year_nonneg
  have hLast := t.onCalendar.dayNumber_le (Int.le_sub_one_of_lt t.year_lt)
  exact ⟨hFirst, hLast⟩

def daySecond (t : DateTime) : Nat := (t.hour * 60 + t.minute) * 60 + t.second

theorem daySecond_lt (t : DateTime) : t.daySecond < 86400 := by
  have hHour := t.hour_lt
  have hMinute := t.minute_lt
  have hSecond := t.second_lt
  rw [daySecond]
  omega

theorem clockTime?_fields (t : DateTime) (offset : Int) :
    (t.fields offset).clockTime? = some
      { second := t.daySecond
        nanos := fractionNanos t.fraction
        second_lt := t.daySecond_lt
        nanos_lt := Nat.lt_trans (fractionNanos_lt t.isDigit) (by decide) } := by
  have hSecond := t.second_lt
  have hNanos := fractionNanos_lt t.isDigit
  rw [Fields.clockTime?, dif_pos ⟨t.hour_lt, t.minute_lt, Nat.le_of_lt hSecond, hNanos⟩]
  -- A second before the sixtieth is no leap second.
  have hClamp : min t.second 59 = t.second := by omega
  have hLeap : t.second ≠ 60 := by omega
  simp only [fields, hClamp, hLeap, if_false, Nat.zero_add, daySecond]

/-- The years of four digits are so few that no offset leads out of the calendar. -/
theorem exists_instant (t : DateTime) (h : offset.natAbs < 86400) :
    ∃ i, (t.fields offset).instant? = some i ∧ i.micros = t.micros offset := by
  obtain ⟨hFirst, hLast⟩ := t.dayNumber_bounds
  have hSecond := t.daySecond_lt
  have hDate : (t.fields offset).date? = some t.date := if_pos t.isValid_date
  have hRange : Date.inRange ((t.date.dayNumber * 86400 + t.daySecond - offset) / 86400) = true := by
    rw [Date.inRange_iff]
    omega
  refine ⟨⟨t.date.dayNumber * 86400 + t.daySecond - offset, fractionNanos t.fraction, ?_⟩, ?_, ?_⟩
  · exact Nat.lt_trans (fractionNanos_lt t.isDigit) (by decide)
  · simp only [Fields.instant?, hDate, t.clockTime?_fields, Option.bind_eq_bind, Option.bind_some]
    exact if_pos (by rw [Bool.and_eq_true]; exact ⟨decide_eq_true h, hRange⟩)
  · have hSeconds : t.date.dayNumber * 86400 + t.daySecond =
        ((t.date.dayNumber * 24 + t.hour) * 60 + t.minute) * 60 + t.second := by
      rw [daySecond]
      omega
    rw [Instant.micros, micros, fractionNanos_div t.isDigit, hSeconds]

theorem isBlank_of_mem_padded {width n : Nat} : ∀ c ∈ padded width n, isBlank c = false :=
  fun c hc => isBlank_of_isDigit ((writes_padded width n).isDigit c hc)

theorem isBlank_of_mem_minuteText : ∀ c ∈ t.minuteText, isBlank c = false :=
  List.forall_mem_append.mpr
    ⟨isBlank_of_mem_padded, List.forall_mem_cons.mpr ⟨rfl, isBlank_of_mem_padded⟩⟩

theorem isBlank_of_mem_fractionText : ∀ c ∈ fractionText t.fraction, isBlank c = false := by
  have hDigits : ∀ c ∈ t.fraction, isBlank c = false :=
    fun c hc => isBlank_of_isDigit (t.isDigit c hc)
  unfold fractionText
  split
  · nofun
  · exact List.forall_mem_cons.mpr ⟨rfl, hDigits⟩

theorem isBlank_of_mem_clockText : ∀ c ∈ t.clockText, isBlank c = false :=
  List.forall_mem_append.mpr ⟨isBlank_of_mem_minuteText, List.forall_mem_cons.mpr
    ⟨rfl, List.forall_mem_append.mpr ⟨isBlank_of_mem_padded, isBlank_of_mem_fractionText⟩⟩⟩

theorem Notates.exists_tail (h : t.Notates offset body) :
    ∃ separator mark tail, body = t.dateText separator ++ mark :: tail ∧ tail ≠ [] ∧
      ∀ c ∈ tail, isBlank c = false := by
  cases h with
  | utc hMark =>
    exact ⟨_, _, _, rfl, by simp [clockText], isBlank_of_mem_clockText⟩
  | minutes hMark hSecond hFraction =>
    exact ⟨_, _, _, rfl, by simp [minuteText], isBlank_of_mem_minuteText⟩
  | zulu hMark =>
    refine ⟨_, _, _, rfl, by simp, List.forall_mem_append.mpr ⟨isBlank_of_mem_clockText, ?_⟩⟩
    exact List.forall_mem_singleton.mpr rfl
  | offset hMark hSign hHours hMinutes hColon =>
    refine ⟨_, _, _, rfl, by simp, List.forall_mem_append.mpr ⟨isBlank_of_mem_clockText, ?_⟩⟩
    refine List.forall_mem_cons.mpr ⟨by cases hSign <;> rfl, List.forall_mem_append.mpr
      ⟨isBlank_of_mem_padded, List.forall_mem_append.mpr ⟨?_, isBlank_of_mem_padded⟩⟩⟩
    rcases hColon with rfl | rfl
    · exact List.forall_mem_singleton.mpr rfl
    · nofun

theorem Notates.trim_eq (h : t.Notates offset body) {before after : List Char}
    (hBefore : ∀ c ∈ before, isBlank c = true) (hAfter : ∀ c ∈ after, isBlank c = true) :
    trim (before ++ body ++ after) = body := by
  obtain ⟨separator, mark, tail, rfl, hNonempty, hTail⟩ := h.exists_tail
  refine trim_between_blanks hBefore hAfter (fun rest => ?_) ?_
  · rw [List.append_assoc, dateText_append]
    exact (writesYear_yearText _).trimStart_append
  · rw [List.append_cons]
    exact trimEnd_append hNonempty hTail

theorem WrittenAs.exists_hasReading {text : String} (h : t.WrittenAs offset text) :
    ∃ i, HasReading instantReaders text i ∧ i.micros = t.micros offset := by
  obtain ⟨before, body, after, hBefore, hAfter, hBody, hText⟩ := h
  obtain ⟨r, hr, hRead⟩ := hBody.exists_reader
  obtain ⟨i, hInstant, hMicros⟩ := t.exists_instant hBody.offset_lt
  refine ⟨i, ⟨r, hr, ?_⟩, hMicros⟩
  rw [hText, hBody.trim_eq hBefore hAfter, hRead, hInstant]

end DateTime

end RecordFilter
