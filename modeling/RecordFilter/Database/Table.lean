import RecordFilter.Schema.Basic
import RecordFilter.Sql.Value
import RecordFilter.Text.Fold

/-!
# Tables

A database is a list of named tables of rows, with the row counts recorded when it was last
analyzed. A column a row does not hold is null; names of tables are the same in either case of
their ASCII letters.
-/

namespace RecordFilter

namespace Database

open Sql

abbrev StoredRow := List (String × StoredValue)

def StoredRow.value (r : StoredRow) (column : String) : StoredValue := (r.lookup column).getD .null

structure Table where
  name : String
  rows : List StoredRow

end Database

/-- What a column of a kind stores for a value: a real column makes reals of integers. -/
def ColumnKind.store (k : ColumnKind) (v : Sql.StoredValue) : Sql.StoredValue :=
  match k, v with
  | real, .integer n => .real (.ofInt n)
  | _, v => v

structure Database where
  tables : List Database.Table
  /-- The row counts of the last analysis; none if there was none. -/
  statistics : Option (List (String × Nat)) := none

namespace Database

def isNamed (name : String) (t : Table) : Bool := Text.fold t.name == Text.fold name

def table? (db : Database) (name : String) : Option Table := db.tables.find? (isNamed name)

def insert? (db : Database) (name : String) (rows : List StoredRow) : Option Database :=
  (db.table? name).map fun _ =>
    { db with tables := db.tables.map fun t =>
        if isNamed name t then { t with rows := t.rows ++ rows } else t }

def analyze (db : Database) : Database :=
  { db with statistics := some <| db.tables.filterMap fun t =>
      if t.rows.isEmpty then none else some (t.name, t.rows.length) }

end Database

end RecordFilter
