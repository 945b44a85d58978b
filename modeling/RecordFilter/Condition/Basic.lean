import RecordFilter.Filter.Mode
import RecordFilter.Number

/-!
# Conditions

A condition is a predicate on one field, free of any backend: filters compile to it, the in-memory
evaluation and the rendering as SQL both interpret it. A range, a day and an instant are all the
same kind of interval.
-/

namespace RecordFilter

inductive TextTest where
  | equals
  | contains
  | startsWith
  | endsWith
deriving DecidableEq

instance : Named TextTest where
  all := [.equals, .contains, .startsWith, .endsWith]
  name
    | .equals => "equals"
    | .contains => "contains"
    | .startsWith => "starts_with"
    | .endsWith => "ends_with"

inductive Comparison where
  | eq
  | ne
  | gt
  | ge
  | lt
  | le
deriving DecidableEq

instance : Named Comparison where
  all := [.eq, .ne, .gt, .ge, .lt, .le]
  name
    | .eq => "="
    | .ne => "<>"
    | .gt => ">"
    | .ge => ">="
    | .lt => "<"
    | .le => "<="

def Comparison.holds : Comparison → Ordering → Bool
  | eq, o => o == .eq
  | ne, o => o != .eq
  | gt, o => o == .gt
  | ge, o => o != .lt
  | lt, o => o == .lt
  | le, o => o != .gt

theorem Comparison.holds_ne (o : Ordering) : ne.holds o = !eq.holds o := rfl

inductive Operand where
  | number (n : Number)
  | bool (b : Bool)
  /-- Microseconds since the start of 1970 for dates, since midnight for times. -/
  | micros (m : Int)
deriving DecidableEq

/-- How the stored value is read before it is compared. -/
inductive Projection where
  | identity
  | timeOfDay
deriving DecidableEq

instance : Named Projection where
  all := [.identity, .timeOfDay]
  name
    | .identity => "identity"
    | .timeOfDay => "time_of_day"

inductive Condition where
  /-- A test on the folded text against a folded needle. -/
  | text (test : TextTest) (needle : String) (negated : Bool)
  /-- A test for null; `blankText` counts the text without characters as empty too. -/
  | empty (negated blankText : Bool)
  | compare (op : Comparison) (operand : Operand)
  /-- At least `lower` and below `upper`, or at most `upper` if it is inclusive. -/
  | within (lower upper : Operand) (upperInclusive negated : Bool)
deriving DecidableEq

/-- The answer on null: negated conditions hold of it, and so does emptiness. -/
def Condition.matchesNull : Condition → Bool
  | text _ _ negated => negated
  | empty negated _ => !negated
  | compare op _ => op == .ne
  | within _ _ _ negated => negated

structure CompiledCondition where
  dataType : DataType
  projection : Projection
  condition : Condition
deriving DecidableEq

end RecordFilter
