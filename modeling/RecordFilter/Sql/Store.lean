import RecordFilter.Sql.Connection
import RecordFilter.Sql.Statement

/-!
# What statements mean

A store holds tables and says what the parts of a statement are on their rows. What a statement is
about then follows: the rows of a table, each joined to the rows the joins find for it or to none,
as far as the condition keeps them. A selection of them is sorted, cut and mapped to records.
-/

namespace RecordFilter.Sql

/-- Rows under the names or aliases of their tables; none where a join found nothing. -/
abbrev JoinedRow (τ : Type) := List (String × Option τ)

/-- A database with rows of type `τ` and a mapper from what it selects to records of type `ρ`. -/
structure Store (τ ρ : Type) where
  table? : String → Option (List τ)
  /-- Whether a row of the joined table meets the condition of the join. -/
  meets : JoinClause → JoinedRow τ → τ → Bool
  keeps : Predicate ColumnRef → Parameters → JoinedRow τ → Bool
  order : List (OrderTerm ColumnRef) → Parameters → JoinedRow τ → JoinedRow τ → Ordering
  /-- The record of a row of which all columns of one table and some items are selected. -/
  record : String → List SelectItem → JoinedRow τ → ρ

namespace RowWindow

def slice {α : Type} (w : RowWindow) (rows : List α) : List α := (rows.drop w.offset).take w.limit

end RowWindow

namespace Store

variable {τ ρ : Type} (db : Store τ ρ)

def found (j : JoinClause) (row : JoinedRow τ) : List τ :=
  ((db.table? j.table).getD []).filter (db.meets j row)

/-- A row extended by each row that is found for it, or by none if nothing is. -/
def leftJoin (j : JoinClause) (row : JoinedRow τ) : List (JoinedRow τ) :=
  match db.found j row with
  | [] => [row ++ [(j.tableAlias, none)]]
  | ts => ts.map fun t => row ++ [(j.tableAlias, some t)]

def joinRows (rows : List (JoinedRow τ)) : List JoinClause → List (JoinedRow τ)
  | [] => rows
  | j :: js => joinRows (rows.flatMap (db.leftJoin j)) js

def baseRow (table : String) (t : τ) : JoinedRow τ := [(table, some t)]

/-- The rows of a statement before its condition, if the database has all of its tables. -/
def joined? (s : RowSource) : Option (List (JoinedRow τ)) := do
  let base ← db.table? s.table
  if s.joins.all fun j => (db.table? j.table).isSome then
    some (db.joinRows (base.map (baseRow s.table)) s.joins)
  else none

def keepsRow (condition : Option (Predicate ColumnRef)) (ps : Parameters) (row : JoinedRow τ) :
    Bool :=
  match condition with
  | none => true
  | some p => db.keeps p ps row

def kept? (s : RowSource) (ps : Parameters) : Option (List (JoinedRow τ)) :=
  (db.joined? s).map (·.filter (db.keepsRow s.condition ps))

def mayPrecede (terms : List (OrderTerm ColumnRef)) (ps : Parameters) (a b : JoinedRow τ) : Bool :=
  db.order terms ps a b != .gt

def cut (window : Option RowWindow) (rows : List (JoinedRow τ)) : List (JoinedRow τ) :=
  match window with
  | none => rows
  | some w => w.slice rows

/-- A connection that reads every text and answers it. Anything else is an error of the database:
a text that is not read, a table it does not have, a count that is no 64-bit integer. -/
def connection : Connection ρ where
  count text ps := match readStatement? .sqlite text with
    | some (.count source) => match db.kept? source ps with
      | some rows =>
        if rows.length < 2 ^ 63 then .ok (.ofNat rows.length) else .error .database
      | none => .error .database
    | _ => .error .database
  rows text ps := match readStatement? .sqlite text with
    | some (.select whole items source order window) => match db.kept? source ps with
      | some rows =>
        .ok ((cut window (rows.mergeSort (db.mayPrecede order ps))).map (db.record whole items))
      | none => .error .database
    | _ => .error .database

end Store

end RecordFilter.Sql
