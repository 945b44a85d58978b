/-!
# Calendar dates

Dates of the proleptic Gregorian calendar and their day numbers, day 0 being 1 January 1970. The
calendar has years from -262143 to 262142; year 0 is a leap year.
-/

namespace RecordFilter

structure Date where
  year : Int
  month : Nat
  day : Nat
deriving DecidableEq

namespace Date

def isLeapYear (y : Int) : Bool := y % 4 == 0 && (y % 100 != 0 || y % 400 == 0)

def daysInMonth (y : Int) : Nat → Nat
  | 2 => if isLeapYear y then 29 else 28
  | 4 | 6 | 9 | 11 => 30
  | _ => 31

def firstYear : Int := -262143

def lastYear : Int := 262142

def isValid (d : Date) : Bool :=
  firstYear ≤ d.year && d.year ≤ lastYear && 1 ≤ d.month && d.month ≤ 12 &&
    1 ≤ d.day && d.day ≤ daysInMonth d.year d.month

/-- The number of leap years from year 1 up to the year before `y`, negative for earlier years. -/
def leapYearsBefore (y : Int) : Int := (y - 1) / 4 - (y - 1) / 100 + (y - 1) / 400

def daysBeforeYear (y : Int) : Int :=
  365 * (y - 1970) + (leapYearsBefore y - leapYearsBefore 1970) - 1

def daysBeforeMonth (y : Int) (m : Nat) : Nat :=
  (List.range (m - 1)).foldl (fun days i => days + daysInMonth y (i + 1)) 0

def dayNumber (d : Date) : Int := daysBeforeYear d.year + daysBeforeMonth d.year d.month + d.day

theorem leapYearsBefore_succ (y : Int) :
    leapYearsBefore (y + 1) = leapYearsBefore y + if isLeapYear y then 1 else 0 := by
  simp only [leapYearsBefore, isLeapYear, Bool.and_eq_true, Bool.or_eq_true, beq_iff_eq,
    bne_iff_ne]
  split <;> omega

def firstDay : Int := dayNumber ⟨firstYear, 1, 1⟩

def lastDay : Int := dayNumber ⟨lastYear, 12, 31⟩

def inRange (n : Int) : Bool := firstDay ≤ n && n ≤ lastDay

end Date

end RecordFilter
