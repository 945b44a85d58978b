import RecordFilter.Condition.Compile
import RecordFilter.Value

/-!
# Evaluating conditions and ordering values

A value is first reduced to a probe, the form in which its data type compares. A value of another
type has no probe and counts as null. Nulls sort last in both directions.
-/

namespace RecordFilter

inductive Probe where
  | text (s : String)
  | number (n : Number)
  | bool (b : Bool)
  | micros (m : Int)
deriving DecidableEq

def Value.probe? (v : Value) : DataType → Option Probe
  | .text => match v with
    | text s => some (.text s)
    | _ => none
  | .number => match v with
    | number n => some (.number n)
    | _ => none
  | .boolean => match v with
    | bool b => some (.bool b)
    | _ => none
  | .date => v.timestampMicros?.map .micros
  | .time => v.timeOfDayMicros?.map .micros

namespace Probe

def compare? : Probe → Operand → Option Ordering
  | number a, .number b => a.compare? b
  | bool a, .bool b => some (compare a b)
  | micros a, .micros b => some (compare a b)
  | _, _ => none

/-- The order for sorting: text by code points, numbers by value, false before true. -/
def order : Probe → Probe → Ordering
  | text a, text b => compare a b
  | number a, number b => a.order b
  | bool a, bool b => compare a b
  | micros a, micros b => compare a b
  | _, _ => .eq

end Probe

def TextTest.holds (test : TextTest) (needle text : List Char) : Bool :=
  match test with
  | equals => text == needle
  | contains => Text.occursIn needle text
  | startsWith => needle.isPrefixOf text
  | endsWith => needle.isSuffixOf text

namespace Condition

def matchesProbe : Condition → Probe → Bool
  | text test needle negated, .text s =>
    test.holds needle.toList (Text.fold s).toList != negated
  | text _ _ negated, _ => negated
  | empty negated _, _ => negated
  | compare op operand, p => match p.compare? operand with
    | some o => op.holds o
    | none => op == .ne
  | within lower upper upperInclusive negated, p =>
    let above := match p.compare? lower with
      | some o => o != .lt
      | none => false
    let below := match p.compare? upper with
      | some .lt => true
      | some .eq => upperInclusive
      | _ => false
    (above && below) != negated

def isEmptyValue (blankText : Bool) : Value → Bool
  | .null => true
  | .text s => blankText && s.isEmpty
  | _ => false

end Condition

namespace CompiledCondition

/-- Whether the condition holds of a value. Emptiness looks at the value itself, all other
conditions at its probe. -/
def matchesValue (c : CompiledCondition) (v : Value) : Bool :=
  match c.condition with
  | .empty negated blankText => Condition.isEmptyValue blankText v != negated
  | condition => match v.probe? c.dataType with
    | none => condition.matchesNull
    | some p => condition.matchesProbe p

def matchesNull (c : CompiledCondition) : Bool := c.condition.matchesNull

theorem matchesValue_null (c : CompiledCondition) : c.matchesValue .null = c.matchesNull := by
  rcases c with ⟨t, p, c⟩
  cases c <;> cases t <;>
    simp [matchesValue, matchesNull, Condition.matchesNull, Condition.isEmptyValue, Value.probe?,
      Value.timestampMicros?, Value.timeOfDayMicros?]

end CompiledCondition

def DataType.defaultKind : DataType → ColumnKind
  | text => .text
  | number => .real
  | boolean => .boolean
  | date => .timestamp
  | time => .timeOfDay

def Value.passes (v : Value) (t : DataType) (mode : Mode) (operand : Option FilterValue) :
    Except FilterError Bool := do
  let f : FieldFilter := { field := "value", mode, dataType := t, value := operand }
  return (← f.compile t.defaultKind).matchesValue v

/-- The order of two values in a direction, nulls last in both. -/
def DataType.order (t : DataType) (d : Direction) (a b : Value) : Ordering :=
  match a.probe? t, b.probe? t with
  | some p, some q => d.apply (p.order q)
  | some _, none => .lt
  | none, some _ => .gt
  | none, none => .eq

end RecordFilter
