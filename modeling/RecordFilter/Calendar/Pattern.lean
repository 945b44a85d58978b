import RecordFilter.Calendar.Instant
import RecordFilter.Power
import RecordFilter.Text.Blank
import RecordFilter.Text.Digits

/-!
# Patterns for dates and times

A pattern lists the items of a written date or time. Items are read leniently: a number may follow
blanks and may have fewer digits than its width, a blank in the pattern stands for any run of
blanks, a year may have any number of digits after a sign, and only the first nine digits of a
fraction count. A text fits a pattern when all of it is read and its fields are in range.
-/

namespace RecordFilter.Calendar

inductive Item where
  | literal (c : Char)
  | blanks
  | year
  | month
  | day
  | hour
  | minute
  | second
  /-- Nothing, or a point and digits. -/
  | fraction
  /-- A sign, two digits of hours and two of minutes, with colons or blanks between them. -/
  | offset
deriving DecidableEq

abbrev Pattern := List Item

structure Fields where
  year : Int := 0
  month : Nat := 1
  day : Nat := 1
  hour : Nat := 0
  minute : Nat := 0
  second : Nat := 0
  nanos : Nat := 0
  /-- Seconds ahead of UTC. -/
  offset : Int := 0

def readDigits? (width : Nat) (cs : List Char) : Option (Nat × List Char) :=
  let ds := (cs.take width).takeWhile Char.isDigit
  if ds.isEmpty then none else some (Text.digitsValue ds, cs.drop ds.length)

def readFixedDigits? (width : Nat) (cs : List Char) : Option (Nat × List Char) :=
  let ds := (cs.take width).takeWhile Char.isDigit
  if ds.length = width then some (Text.digitsValue ds, cs.drop width) else none

def readAllDigits? (cs : List Char) : Option (Nat × List Char) := readDigits? cs.length cs

/-- A year: up to four digits, or any number of digits after a sign. -/
def readYear? : List Char → Option (Int × List Char)
  | '-' :: cs => (readAllDigits? cs).map fun (n, cs) => (-(n : Int), cs)
  | '+' :: cs => (readAllDigits? cs).map fun (n, cs) => ((n : Int), cs)
  | cs => (readDigits? 4 cs).map fun (n, cs) => ((n : Int), cs)

/-- The nanoseconds of a fraction, if a point starts one. -/
def readFraction? : List Char → Option (Nat × List Char)
  | '.' :: cs =>
    let ds := (cs.take 9).takeWhile Char.isDigit
    if ds.isEmpty then none
    else some (Text.digitsValue ds * 10 ^ (9 - ds.length), cs.dropWhile Char.isDigit)
  | cs => some (0, cs)

def readSign? : List Char → Option (Bool × List Char)
  | '+' :: cs => some (false, cs)
  | '-' :: cs => some (true, cs)
  | '\u2212' :: cs => some (true, cs)
  | _ => none

/-- An offset in seconds; `separator` reads what stands between hours and minutes. -/
def readOffset? (separator : List Char → Option (List Char)) (cs : List Char) :
    Option (Int × List Char) := do
  let (negative, cs) ← readSign? cs
  let (hours, cs) ← readFixedDigits? 2 cs
  let cs ← separator cs
  let (minutes, cs) ← readFixedDigits? 2 cs
  if 60 ≤ minutes then none
  else
    let seconds : Int := (hours * 60 + minutes) * 60
    some (if negative then -seconds else seconds, cs)

def skipColons (cs : List Char) : List Char := cs.dropWhile fun c => c = ':' || Text.isBlank c

def Item.read? (item : Item) (cs : List Char) (f : Fields) : Option (List Char × Fields) :=
  match item with
  | .literal c => match cs with
    | d :: cs => if d = c then some (cs, f) else none
    | [] => none
  | .blanks => some (Text.trimStart cs, f)
  | .year => (readYear? (Text.trimStart cs)).map fun (n, cs) => (cs, { f with year := n })
  | .month => (readDigits? 2 (Text.trimStart cs)).map fun (n, cs) => (cs, { f with month := n })
  | .day => (readDigits? 2 (Text.trimStart cs)).map fun (n, cs) => (cs, { f with day := n })
  | .hour => (readDigits? 2 (Text.trimStart cs)).map fun (n, cs) => (cs, { f with hour := n })
  | .minute => (readDigits? 2 (Text.trimStart cs)).map fun (n, cs) => (cs, { f with minute := n })
  | .second => (readDigits? 2 (Text.trimStart cs)).map fun (n, cs) => (cs, { f with second := n })
  | .fraction => (readFraction? cs).map fun (n, cs) => (cs, { f with nanos := n })
  | .offset => (readOffset? (fun cs => some (skipColons cs)) (Text.trimStart cs)).map
      fun (n, cs) => (cs, { f with offset := n })

def Pattern.scan? : Pattern → List Char → Fields → Option (List Char × Fields)
  | [], cs, f => some (cs, f)
  | item :: p, cs, f => (item.read? cs f).bind fun (cs, f) => scan? p cs f

def Pattern.read? (p : Pattern) (cs : List Char) : Option Fields :=
  match p.scan? cs {} with
  | some ([], f) => some f
  | _ => none

theorem Pattern.scan?_append (p q : Pattern) (cs : List Char) (f : Fields) :
    scan? (p ++ q) cs f = (scan? p cs f).bind fun (cs, f) => scan? q cs f := by
  induction p generalizing cs f with
  | nil => rfl
  | cons item p ih =>
    simp only [List.cons_append, scan?]
    cases item.read? cs f with
    | none => rfl
    | some r => exact ih r.1 r.2

namespace Fields

def date (f : Fields) : Date := ⟨f.year, f.month, f.day⟩

def date? (f : Fields) : Option Date := if f.date.isValid then some f.date else none

/-- The clock time of the fields. Second 60 is the leap second after second 59, at any minute. -/
def clockTime? (f : Fields) : Option ClockTime :=
  if h : f.hour < 24 ∧ f.minute < 60 ∧ f.second ≤ 60 ∧ f.nanos < 1000000000 then
    some { second := (f.hour * 60 + f.minute) * 60 + min f.second 59
           nanos := (if f.second = 60 then 1000000000 else 0) + f.nanos
           nanos_lt := by split <;> omega }
  else none

/-- The UTC instant of the fields. The offset is less than a day, and the instant stays within the
years of the calendar after it is taken off. -/
def instant? (f : Fields) : Option Instant := do
  let date ← f.date?
  let time ← f.clockTime?
  let seconds := date.dayNumber * 86400 + time.second - f.offset
  if f.offset.natAbs < 86400 && Date.inRange (seconds / 86400) then
    some ⟨seconds, time.nanos, time.nanos_lt⟩
  else none

end Fields

end RecordFilter.Calendar
