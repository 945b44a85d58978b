import RecordFilter.Filter.Mode

/-!
# Record schemas

A schema describes a type of records: the columns behind its fields and its to-one relations. The
target of a relation is a reference, resolved in a `Catalog`, so schemas may refer to one another in
cycles. Names need not be unique; a lookup finds the first declaration.
-/

namespace RecordFilter

inductive ColumnKind where
  | text
  | integer
  | real
  | boolean
  /-- Microseconds since the start of 1970, UTC. -/
  | timestamp
  /-- Microseconds since midnight. -/
  | timeOfDay
deriving DecidableEq

instance : Named ColumnKind where
  all := [.text, .integer, .real, .boolean, .timestamp, .timeOfDay]
  name
    | .text => "text"
    | .integer => "integer"
    | .real => "real"
    | .boolean => "boolean"
    | .timestamp => "timestamp"
    | .timeOfDay => "time_of_day"

def ColumnKind.dataType : ColumnKind → DataType
  | text => .text
  | integer | real => .number
  | boolean => .boolean
  | timestamp => .date
  | timeOfDay => .time

structure FieldDef where
  name : String
  column : String
  kind : ColumnKind
deriving DecidableEq

/-- A to-one relation; `κ` is the type of references to schemas. -/
structure RelationDef (κ : Type) where
  name : String
  /-- The column of the owning table that holds the key. -/
  localColumn : String
  /-- The column of the target table that the key refers to. -/
  foreignColumn : String
  target : κ
deriving DecidableEq

structure RecordSchema (κ : Type) where
  name : String
  table : String
  primaryKey : Option String := none
  fields : List FieldDef := []
  relations : List (RelationDef κ) := []
deriving DecidableEq

abbrev Catalog (κ : Type) := κ → RecordSchema κ

namespace RecordSchema

variable {κ : Type}

def findField? (s : RecordSchema κ) (name : String) : Option FieldDef :=
  s.fields.find? fun f => f.name == name

def findRelation? (s : RecordSchema κ) (name : String) : Option (RelationDef κ) :=
  s.relations.find? fun r => r.name == name

def primaryKeyField? (s : RecordSchema κ) : Option FieldDef := s.primaryKey.bind s.findField?

theorem name_of_findField? {s : RecordSchema κ} {name : String} {f : FieldDef}
    (h : s.findField? name = some f) : f.name = name := by
  simpa using List.find?_some h

theorem name_of_findRelation? {s : RecordSchema κ} {name : String} {r : RelationDef κ}
    (h : s.findRelation? name = some r) : r.name = name := by
  simpa using List.find?_some h

end RecordSchema

end RecordFilter
