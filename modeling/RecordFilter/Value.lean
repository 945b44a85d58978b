import RecordFilter.Number
import RecordFilter.Calendar.Instant

/-!
# Field values

The value of a record's field. A field that is absent, or that lies behind a relation that is not
loaded, is null.
-/

namespace RecordFilter

inductive Value where
  | null
  | text (s : String)
  | number (n : Number)
  | bool (b : Bool)
  | timestamp (t : Instant)
  | time (t : ClockTime)
deriving DecidableEq

namespace Value

def timestampMicros? : Value → Option Int
  | timestamp t => some t.micros
  | _ => none

def timeOfDayMicros? : Value → Option Int
  | time t => some t.micros
  | timestamp t => some t.timeOfDay
  | _ => none

theorem timeOfDayMicros?_range {v : Value} {m : Int} (h : v.timeOfDayMicros? = some m) :
    0 ≤ m ∧ m < microsPerDay := by
  cases v <;> simp only [timeOfDayMicros?, Option.some.injEq, reduceCtorEq] at h <;> subst h
  · simp only [Instant.timeOfDay, microsPerDay]
    omega
  · exact ⟨ClockTime.micros_nonneg _, ClockTime.micros_lt _⟩

end Value

end RecordFilter
