import RecordFilter.Filter.Mode
import RecordFilter.Number

/-!
# Filter specifications

A specification is a flat list of filters joined by one logic, sort keys, and relations to load
along with each record. Field paths are dotted names; nothing here is checked against a schema.
-/

namespace RecordFilter

inductive Scalar where
  | bool (b : Bool)
  | number (n : Number)
  | text (s : String)
deriving DecidableEq

/-- The operand of a filter; both ends of a range belong to it. -/
inductive FilterValue where
  | scalar (v : Scalar)
  | range (low high : Scalar)
deriving DecidableEq

structure FieldFilter where
  field : String
  mode : Mode
  dataType : DataType
  value : Option FilterValue := none
deriving DecidableEq

structure SortField where
  field : String
  direction : Direction := .asc
deriving DecidableEq

structure Specification where
  logic : Logic := .and
  filters : List FieldFilter := []
  sort : List SortField := []
  /-- Relation paths to load with each record. -/
  preload : List String := []
deriving DecidableEq

def Scalar.asText : Scalar → String
  | bool b => if b then "true" else "false"
  | number n => n.text
  | text s => s

namespace Specification

def empty : Specification := {}

def withLogic (s : Specification) (logic : Logic) : Specification := { s with logic }

def addFilter (s : Specification) (f : FieldFilter) : Specification :=
  { s with filters := s.filters ++ [f] }

def addSort (s : Specification) (k : SortField) : Specification := { s with sort := s.sort ++ [k] }

def addPreload (s : Specification) (path : String) : Specification :=
  { s with preload := s.preload ++ [path] }

end Specification

end RecordFilter
