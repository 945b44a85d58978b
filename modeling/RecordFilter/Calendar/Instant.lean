import RecordFilter.Calendar.Date

/-!
# Instants and clock times

An instant is a UTC second with nanoseconds, a clock time the second of a day with nanoseconds.
Nanoseconds beyond a full second mark a leap second: an instant counts them into the following
second, a clock time stops at the last microsecond of its second. Comparisons are at microseconds,
so the finer part is cut off.
-/

namespace RecordFilter

def microsPerSecond : Nat := 1000000

def microsPerDay : Nat := 86400000000

structure Instant where
  /-- Seconds since the start of 1970. -/
  seconds : Int
  nanos : Nat
  nanos_lt : nanos < 2000000000 := by omega
deriving DecidableEq

structure ClockTime where
  /-- Seconds since midnight. -/
  second : Nat
  nanos : Nat
  second_lt : second < 86400 := by omega
  nanos_lt : nanos < 2000000000 := by omega
deriving DecidableEq

namespace Instant

def micros (t : Instant) : Int := t.seconds * microsPerSecond + (t.nanos / 1000 : Nat)

def timeOfDay (t : Instant) : Int := t.micros % microsPerDay

/-- The instant so many microseconds after the start of 1970, within the years of the calendar. -/
def ofMicros? (m : Int) : Option Instant :=
  if Date.inRange (m / microsPerDay) then
    some { seconds := m / microsPerSecond
           nanos := (m % microsPerSecond).toNat * 1000
           nanos_lt := by simp only [microsPerSecond]; omega }
  else none

theorem micros_of_ofMicros? {m : Int} {t : Instant} (h : ofMicros? m = some t) : t.micros = m := by
  unfold ofMicros? at h
  split at h
  · obtain rfl := Option.some.inj h
    simp only [micros, microsPerSecond]
    omega
  · cases h

end Instant

namespace ClockTime

def micros (t : ClockTime) : Int :=
  t.second * microsPerSecond + (min t.nanos 999999999 / 1000 : Nat)

/-- The clock time at a second of the day. A leap second is the last one of its minute. -/
def ofSecond? (second nanos : Nat) : Option ClockTime :=
  if h : second < 86400 ∧ nanos < 2000000000 ∧ (nanos < 1000000000 ∨ second % 60 = 59) then
    some { second, nanos, second_lt := h.1, nanos_lt := h.2.1 }
  else none

def unsigned32? (n : Int) : Option Nat :=
  if 0 ≤ n ∧ n < UInt32.size then some n.toNat else none

def ofMicros? (m : Int) : Option ClockTime := do
  let second ← unsigned32? (m / microsPerSecond)
  let nanos ← unsigned32? (m % microsPerSecond * 1000)
  ofSecond? second nanos

theorem micros_lt (t : ClockTime) : t.micros < microsPerDay := by
  have h := t.second_lt
  simp only [micros, microsPerSecond, microsPerDay]
  omega

theorem micros_nonneg (t : ClockTime) : 0 ≤ t.micros := by
  simp only [micros, microsPerSecond]
  omega

end ClockTime

end RecordFilter
