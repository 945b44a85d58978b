import RecordFilter.Database.Table
import RecordFilter.Schema.Record
import RecordFilter.Sql.Evaluate
import RecordFilter.Sql.Store

/-!
# Running statements on tables

Statements mean on tables of stored values what SQL has them mean. What is selected comes out under
names, and records are read off it by the kinds of their fields. A relation is loaded if its key
came out non-null.
-/

namespace RecordFilter.Database

open Sql

def cellOf (r : JoinedRow StoredRow) (c : ColumnRef) : StoredValue :=
  match r.lookup c.table with
  | some (some t) => t.value c.column
  | _ => .null

def joinMatches (j : JoinClause) (r : JoinedRow StoredRow) (t : StoredRow) : Bool :=
  StoredValue.compare? (t.value j.foreignColumn) (cellOf r ⟨j.parentAlias, j.localColumn⟩) ==
    some .eq

/-- The selected values of a row by output name, the later columns first: of two columns of one
name the later one is found. -/
def output (whole : String) (items : List SelectItem) (r : JoinedRow StoredRow) : StoredRow :=
  (items.map fun i => (i.output, cellOf r i.column)).reverse ++
    ((r.lookup whole).join.getD []).reverse

/-- A stored value as the value of a field. What the kind cannot hold reads as null. -/
def readValue (k : ColumnKind) (v : StoredValue) : Value :=
  match k, v with
  | .text, .text s => .text s
  | .integer, .integer n => .number (.int (.ofInt n))
  | .real, .real x => .number (.real x)
  | .real, .integer n => .number (.real (.ofInt n))
  | .boolean, .integer n => .bool (n != 0)
  | .timestamp, .integer m => ((Instant.ofMicros? m).map Value.timestamp).getD .null
  | .timeOfDay, .integer m => ((ClockTime.ofMicros? m).map Value.time).getD .null
  | _, _ => .null

variable {κ : Type}

def outputName (path column : String) : String :=
  if path.isEmpty then column else projectionAlias path column

def readFields (row : StoredRow) (path : String) (s : RecordSchema κ) : List (String × Value) :=
  s.fields.map fun f => (f.name, readValue f.kind (row.value (outputName path f.column)))

def isLoaded (row : StoredRow) (path : String) (s : RecordSchema κ) : Bool :=
  match s.primaryKeyField? with
  | some f => !(row.value (outputName path f.column)).isNull
  | none => false

def readRecord (catalog : Catalog κ) (row : StoredRow) (s : RecordSchema κ) (path : String) :
    Nat → Record
  | 0 => .mk (readFields row path s) []
  | depth + 1 => .mk (readFields row path s) <| s.relations.filterMap fun r =>
      let target := catalog r.target
      let path := extendPath path r.name
      if isLoaded row path target then some (r.name, readRecord catalog row target path depth)
      else none

/-- The database as a store. A relation at some depth takes as many joins to reach. -/
def store (db : Database) (catalog : Catalog κ) (s : RecordSchema κ) : Store StoredRow Record where
  table? name := (db.table? name).map (·.rows)
  meets := joinMatches
  keeps p ps r := Sql.keeps (some p) (cellOf r) ps
  order terms ps a b := orderRows .sqlite ps terms (cellOf a) (cellOf b)
  record whole items r := readRecord catalog (output whole items r) s "" (r.length - 1)

def connection (db : Database) (catalog : Catalog κ) (s : RecordSchema κ) : Connection Record :=
  (db.store catalog s).connection

end RecordFilter.Database
