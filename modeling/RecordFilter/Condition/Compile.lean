import RecordFilter.Condition.Basic
import RecordFilter.Filter.Operand

/-!
# Compiling filters

`FieldFilter.compile` turns a filter on a column of a given kind into a condition. The checks come
in a fixed order: the mode must support the data type, the data type must fit the column, the
operand must have the shape the mode asks for, it must be readable, and a range must not be empty.
-/

namespace RecordFilter

def ColumnKind.projection? (kind : ColumnKind) (t : DataType) : Option Projection :=
  if t = kind.dataType then some .identity
  else if t = .time && kind = .timestamp then some .timeOfDay
  else none

def Mode.textTest? : Mode → Option (TextTest × Bool)
  | equal => some (.equals, false)
  | notEqual => some (.equals, true)
  | contains => some (.contains, false)
  | notContains => some (.contains, true)
  | startsWith => some (.startsWith, false)
  | endsWith => some (.endsWith, false)
  | _ => none

def Mode.comparison? : Mode → Option Comparison
  | equal => some .eq
  | notEqual => some .ne
  | greaterThan => some .gt
  | greaterOrEqual => some .ge
  | lessThan => some .lt
  | lessOrEqual => some .le
  | _ => none

def Condition.withinSpan (start stop : Int) (negated : Bool) : Condition :=
  .within (.micros start) (.micros stop) false negated

/-- The condition of a mode on a span. What lies before a span lies before its start, what lies
after it lies at its stop or later. -/
def Mode.spanCondition? (s : Calendar.Span) : Mode → Option Condition
  | equal => some (.withinSpan s.start s.stop false)
  | notEqual => some (.withinSpan s.start s.stop true)
  | before | lessThan => some (.compare .lt (.micros s.start))
  | after | greaterThan => some (.compare .ge (.micros s.stop))
  | greaterOrEqual => some (.compare .ge (.micros s.start))
  | lessOrEqual => some (.compare .lt (.micros s.stop))
  | _ => none

namespace FieldFilter

def requireScalar (f : FieldFilter) : Except FilterError Scalar :=
  match f.value with
  | none => .error (.invalidValue f.field f.mode .missing)
  | some (.scalar v) => .ok v
  | some (.range _ _) => .error (.invalidValue f.field f.mode .rangeForScalar)

def requireRange (f : FieldFilter) : Except FilterError (Scalar × Scalar) :=
  match f.value with
  | none => .error (.invalidValue f.field f.mode .missing)
  | some (.scalar _) => .error (.invalidValue f.field f.mode .scalarForRange)
  | some (.range low high) => .ok (low, high)

def reading {α : Type} (f : FieldFilter) (v : Scalar) (r : Except ParseFailure α) :
    Except FilterError α :=
  r.mapError (.parse f.field f.dataType v.asText)

def readNumber (f : FieldFilter) (v : Scalar) : Except FilterError Number :=
  f.reading v v.readNumber

def readSpan (f : FieldFilter) (v : Scalar) : Except FilterError Calendar.Span :=
  f.reading v <| match v with
    | .text s => if f.dataType = .time then Scalar.readTime s else Scalar.readDate s
    | _ => .error .notText

def supported {α : Type} (f : FieldFilter) (r : Option α) : Except FilterError α :=
  match r with
  | some a => .ok a
  | none => .error (.unsupportedMode f.field f.mode f.dataType)

def emptyRange {α : Type} (f : FieldFilter) (low high : Scalar) : Except FilterError α :=
  .error (.invalidRange f.field low.asText high.asText)

def compileText (f : FieldFilter) : Except FilterError Condition := do
  let v ← f.requireScalar
  let (test, negated) ← f.supported f.mode.textTest?
  return .text test (Text.fold v.asText) negated

def compileNumber (f : FieldFilter) : Except FilterError Condition := do
  if f.mode = .range then
    let (low, high) ← f.requireRange
    let lower ← f.readNumber low
    let upper ← f.readNumber high
    if lower.compare? upper = some .gt then f.emptyRange low high
    else return .within (.number lower) (.number upper) true false
  else
    let n ← f.readNumber (← f.requireScalar)
    let op ← f.supported f.mode.comparison?
    return .compare op (.number n)

def compileBool (f : FieldFilter) : Except FilterError Condition := do
  let v ← f.requireScalar
  let b ← f.reading v v.readBool
  return .compare (if f.mode = .notEqual then .ne else .eq) (.bool b)

def compileTemporal (f : FieldFilter) : Except FilterError Condition := do
  if f.mode = .range then
    let (low, high) ← f.requireRange
    let first ← f.readSpan low
    let last ← f.readSpan high
    if last.stop ≤ first.start then f.emptyRange low high
    else return .withinSpan first.start last.stop false
  else
    let span ← f.readSpan (← f.requireScalar)
    f.supported (f.mode.spanCondition? span)

def compileValue (f : FieldFilter) : Except FilterError Condition :=
  match f.dataType with
  | .text => f.compileText
  | .number => f.compileNumber
  | .boolean => f.compileBool
  | .date | .time => f.compileTemporal

def compile (f : FieldFilter) (kind : ColumnKind) : Except FilterError CompiledCondition := do
  if !f.mode.supports f.dataType then
    .error (.unsupportedMode f.field f.mode f.dataType)
  else match kind.projection? f.dataType with
    | none => .error (.typeMismatch f.field f.dataType kind)
    | some projection =>
      let condition ←
        if f.mode.isNullary then
          pure (Condition.empty (f.mode = .isNotEmpty) (f.dataType = .text))
        else f.compileValue
      return { dataType := f.dataType, projection, condition }

end FieldFilter

end RecordFilter
