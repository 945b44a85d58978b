import RecordFilter.Sql.Parameter

/-!
# Stored values

What a cell holds and how stored values compare. Integers and reals are compared by their exact
values, numbers come before text, text is compared by code points, and null compares with nothing.
-/

namespace RecordFilter.Sql

inductive StoredValue where
  | null
  | integer (n : Int)
  | real (x : Binary64)
  | text (s : String)
deriving DecidableEq

/-- A bound parameter as a stored value; truth values are 0 and 1. -/
def StoredValue.ofParameter : Parameter → StoredValue
  | .text s => text s
  | .int n => integer n
  | .real x => real x
  | .bool b => integer (if b then 1 else 0)

/-- An integer in the units in which reals are compared exactly. -/
def scaledInteger (n : Int) : Int := n * 2 ^ 1074

namespace StoredValue

def isNull : StoredValue → Bool
  | null => true
  | _ => false

/-- The order of two values, none if one of them is null. No stored real is a NaN. -/
def compare? : StoredValue → StoredValue → Option Ordering
  | null, _ | _, null => none
  | integer a, integer b => some (compare a b)
  | integer a, real y => some (compare (scaledInteger a) y.scaled)
  | real x, integer b => some (compare x.scaled (scaledInteger b))
  | real x, real y => some (compare x.key y.key)
  | text a, text b => some (compare a b)
  | text _, _ => some .gt
  | _, text _ => some .lt

end StoredValue

end RecordFilter.Sql
