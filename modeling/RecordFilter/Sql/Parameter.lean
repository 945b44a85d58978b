import RecordFilter.Condition.Basic

/-!
# Bound parameters

Filter values reach a database only as parameters. They are numbered from 1 in the order in which
they are bound. An unsigned integer beyond the signed range is bound as the nearest real.
-/

namespace RecordFilter

inductive Parameter where
  | text (s : String)
  | int (n : Int)
  | real (x : Binary64)
  | bool (b : Bool)
deriving DecidableEq

def Parameter.ofNumber : Number → Parameter
  | .int n => int n.toInt
  | .nat n => if n.toNat < 2 ^ 63 then int n.toNat else real (.ofNat n.toNat)
  | .real x => real x

def Parameter.ofOperand : Operand → Parameter
  | .number n => ofNumber n
  | .bool b => bool b
  | .micros m => int m

structure Parameters where
  values : List Parameter := []
deriving DecidableEq

namespace Parameters

def size (ps : Parameters) : Nat := ps.values.length

def isEmpty (ps : Parameters) : Bool := ps.values.isEmpty

def push (ps : Parameters) (p : Parameter) : Parameters × Nat := (⟨ps.values ++ [p]⟩, ps.size + 1)

def at? (ps : Parameters) (position : Nat) : Option Parameter := ps.values[position - 1]?

theorem at?_push (ps : Parameters) (p : Parameter) : (ps.push p).1.at? (ps.push p).2 = some p := by
  simp [push, at?, size]

end Parameters

end RecordFilter
