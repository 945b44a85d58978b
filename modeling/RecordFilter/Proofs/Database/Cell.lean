import RecordFilter.Schema.Basic
import RecordFilter.Sql.Value
import RecordFilter.Value

/-!
# Cells that hold values

Text is stored as text, a truth value as 0 or 1, a timestamp or a time as its microseconds, and
null as null. A signed integer and a real that is no NaN are stored as they are; which of the two a
column of numbers holds is a matter of its kind. Every other value has no cell.
-/

namespace RecordFilter

open Sql

def DataType.cell? : DataType → Value → Option StoredValue
  | _, .null => some .null
  | .text, .text s => some (.text s)
  | .number, .number (.int n) => some (.integer n.toInt)
  | .number, .number (.real x) => if x.isNaN then none else some (.real x)
  | .boolean, .bool b => some (.integer (if b then 1 else 0))
  | .date, .timestamp t => some (.integer t.micros)
  | .time, .time t => some (.integer t.micros)
  | _, _ => none

/-- The cell of a value in a column of the kind. -/
def ColumnKind.cell? (k : ColumnKind) (v : Value) : Option StoredValue :=
  match k, v with
  | .integer, .number (.real _) | .real, .number (.int _) => none
  | _, _ => k.dataType.cell? v

theorem ColumnKind.cell?_dataType {k : ColumnKind} {v : Value} {cell : StoredValue}
    (h : k.cell? v = some cell) : k.dataType.cell? v = some cell := by
  unfold cell? at h
  split at h
  · cases h
  · cases h
  · exact h

namespace DataType

theorem eq_of_cell?_text {v : Value} {cell : StoredValue} (h : text.cell? v = some cell) :
    v = .null ∧ cell = .null ∨ ∃ s, v = .text s ∧ cell = .text s := by
  cases v <;> simp_all [cell?]

theorem eq_of_cell?_number {v : Value} {cell : StoredValue} (h : number.cell? v = some cell) :
    v = .null ∧ cell = .null ∨
      (∃ n, v = .number (.int n) ∧ cell = .integer n.toInt) ∨
      ∃ x, v = .number (.real x) ∧ x.isNaN = false ∧ cell = .real x := by
  cases v with
  | number n => cases n <;> simp_all [cell?]
  | null => simp_all [cell?]
  | _ => simp [cell?] at h

theorem eq_of_cell?_boolean {v : Value} {cell : StoredValue} (h : boolean.cell? v = some cell) :
    v = .null ∧ cell = .null ∨ ∃ b, v = .bool b ∧ cell = .integer (if b then 1 else 0) := by
  cases v <;> simp_all [cell?]

theorem eq_of_cell?_date {v : Value} {cell : StoredValue} (h : date.cell? v = some cell) :
    v = .null ∧ cell = .null ∨ ∃ t, v = .timestamp t ∧ cell = .integer t.micros := by
  cases v <;> simp_all [cell?]

theorem eq_of_cell?_time {v : Value} {cell : StoredValue} (h : time.cell? v = some cell) :
    v = .null ∧ cell = .null ∨ ∃ t, v = .time t ∧ cell = .integer t.micros := by
  cases v <;> simp_all [cell?]

end DataType

theorem ColumnKind.eq_of_cell?_real {v : Value} {cell : StoredValue}
    (h : real.cell? v = some cell) :
    v = .null ∧ cell = .null ∨ ∃ x, v = .number (.real x) ∧ x.isNaN = false ∧ cell = .real x := by
  rcases DataType.eq_of_cell?_number (cell?_dataType h) with hNull | ⟨n, rfl, -⟩ | hReal
  · exact .inl hNull
  · cases h
  · exact .inr hReal

end RecordFilter
