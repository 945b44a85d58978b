import RecordFilter.Binary64.Decimal
import RecordFilter.Calendar.Span
import RecordFilter.Error
import RecordFilter.Text.Fold

/-!
# Reading operands

An operand is read as the data type of its filter. Numbers are accepted in any encoding, also as
text, and integers stay exact over the whole 64-bit range; truth values may be spelt as words or
as 0 and 1; dates and times are text.
-/

namespace RecordFilter.Scalar

/-- A number as text: an integer if it fits 64 bits, else the nearest real. -/
def readNumberText (s : String) : Except ParseFailure Number :=
  let cs := Text.trim s.toList
  match (Text.readSigned? cs).bind Number.ofInteger? with
  | some n => .ok n
  | none => match Binary64.read? cs with
    | some x => .ok (.real x)
    | none => .error (if cs.isEmpty then .emptyNumber else .malformedNumber)

def readNumber (v : Scalar) : Except ParseFailure Number := do
  let n ← match v with
    | number n => .ok n
    | text s => readNumberText s
    | bool _ => .error .booleanForNumber
  if n.isFinite then .ok n else .error .notFinite

def truthWords : List (String × Bool) :=
  [("true", true), ("1", true), ("yes", true), ("false", false), ("0", false), ("no", false)]

def readBool (v : Scalar) : Except ParseFailure Bool :=
  match v with
  | bool b => .ok b
  | number n => match n.integer? with
    | some 1 => .ok true
    | some 0 => .ok false
    | _ => .error (.notBoolean n.text)
  | text s =>
    let word := Text.fold (String.ofList (Text.trim s.toList))
    match truthWords.lookup word with
    | some b => .ok b
    | none => .error (.notBoolean word)

def readDate (s : String) : Except ParseFailure Calendar.Span :=
  match Calendar.readDateSpan? s with
  | some span => .ok span
  | none => .error .noDateFormat

def readTime (s : String) : Except ParseFailure Calendar.Span :=
  match Calendar.readTimeSpan? s with
  | some span => .ok span
  | none => .error .noTimeFormat

end RecordFilter.Scalar
