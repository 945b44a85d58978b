import RecordFilter.Calendar.Pattern

/-!
# Dates and times as text

A written date or time names a span of microseconds. A date alone covers its whole UTC day; as soon
as a time is given the span is one microsecond. Each list of readers is tried in order, and the
first one that fits the whole trimmed text decides.
-/

namespace RecordFilter.Calendar

/-- The microseconds from `start` up to but not including `stop`. -/
structure Span where
  start : Int
  stop : Int
deriving DecidableEq

def Span.instant (micros : Int) : Span := ⟨micros, micros + 1⟩

def Span.ofDate (d : Date) : Span :=
  let start := d.dayNumber * microsPerDay
  ⟨start, start + microsPerDay⟩

def yearMonthDay (separator : Char) : Pattern :=
  [.year, .literal separator, .month, .literal separator, .day]

def hourMinute : Pattern := [.hour, .literal ':', .minute]

def hourMinuteSecond : Pattern := hourMinute ++ [.literal ':', .second, .fraction]

def offsetPatterns : List Pattern :=
  [yearMonthDay '-' ++ .literal 'T' :: hourMinuteSecond ++ [.offset],
   yearMonthDay '-' ++ .blanks :: hourMinuteSecond ++ [.offset]]

def utcPatterns : List Pattern :=
  [yearMonthDay '-' ++ .literal 'T' :: hourMinuteSecond,
   yearMonthDay '-' ++ .blanks :: hourMinuteSecond,
   yearMonthDay '-' ++ .literal 'T' :: hourMinute,
   yearMonthDay '-' ++ .blanks :: hourMinute,
   yearMonthDay '/' ++ .blanks :: hourMinuteSecond,
   yearMonthDay '/' ++ .blanks :: hourMinute]

def datePatterns : List Pattern := [yearMonthDay '-', yearMonthDay '/', yearMonthDay '.']

def clockPatterns : List Pattern := [hourMinuteSecond, hourMinute]

def readOneOf? (allowed : List Char) : List Char → Option (List Char)
  | c :: cs => if allowed.contains c then some cs else none
  | [] => none

/-- The offset of an RFC 3339 date-time: `Z`, or hours and minutes around a colon up to 23:59. -/
def readZone? (cs : List Char) : Option (Int × List Char) :=
  match readOneOf? ['Z', 'z'] cs with
  | some cs => some (0, cs)
  | none => (readOffset? (readOneOf? [':']) cs).filter fun (n, _) => n.natAbs < 86400

def readRfc3339? (cs : List Char) : Option Fields := do
  let (year, cs) ← readFixedDigits? 4 cs
  let cs ← readOneOf? ['-'] cs
  let (month, cs) ← readFixedDigits? 2 cs
  let cs ← readOneOf? ['-'] cs
  let (day, cs) ← readFixedDigits? 2 cs
  let cs ← readOneOf? ['T', 't', ' '] cs
  let (hour, cs) ← readFixedDigits? 2 cs
  let cs ← readOneOf? [':'] cs
  let (minute, cs) ← readFixedDigits? 2 cs
  let cs ← readOneOf? [':'] cs
  let (second, cs) ← readFixedDigits? 2 cs
  let (nanos, cs) ← readFraction? cs
  let (offset, cs) ← readZone? cs
  if cs.isEmpty then some { year, month, day, hour, minute, second, nanos, offset } else none

abbrev Reader (α : Type) := List Char → Option α

/-- The notations of a date-time, in the order in which they are tried. -/
def instantReaders : List (Reader Instant) :=
  (fun cs => (readRfc3339? cs).bind Fields.instant?) ::
    (offsetPatterns ++ utcPatterns).map fun p cs => (p.read? cs).bind Fields.instant?

def dateReaders : List (Reader Date) :=
  datePatterns.map fun p cs => (p.read? cs).bind Fields.date?

def clockReaders : List (Reader ClockTime) :=
  clockPatterns.map fun p cs => (p.read? cs).bind Fields.clockTime?

def daySpanReaders : List (Reader Span) :=
  instantReaders.map (fun r cs => (r cs).map fun t => .instant t.micros) ++
    dateReaders.map (fun r cs => (r cs).map Span.ofDate)

/-- The notations of a time filter: a clock time, or a date-time whose UTC time of day is meant. -/
def timeSpanReaders : List (Reader Span) :=
  clockReaders.map (fun r cs => (r cs).map fun t => .instant t.micros) ++
    instantReaders.map (fun r cs => (r cs).map fun t => .instant t.timeOfDay)

def firstReading? {α : Type} (readers : List (Reader α)) (cs : List Char) : Option α :=
  readers.findSome? fun r => r cs

theorem firstReading?_eq_none_iff {α : Type} {readers : List (Reader α)} {cs : List Char} :
    firstReading? readers cs = none ↔ ∀ r ∈ readers, r cs = none := by
  simp [firstReading?]

def readDateSpan? (s : String) : Option Span := firstReading? daySpanReaders (Text.trim s.toList)

def readTimeSpan? (s : String) : Option Span := firstReading? timeSpanReaders (Text.trim s.toList)

end RecordFilter.Calendar
