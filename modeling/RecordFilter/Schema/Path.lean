import RecordFilter.Schema.Basic
import RecordFilter.Schema.Record
import RecordFilter.Text.Digits

/-!
# Walking field paths

A dotted path names relations to follow and, last, a field. Walking it yields how to read the field
off a record, the hops and the leaf, and how to reach its column in a database, a chain of LEFT
JOINs. A join is aliased by the path of relations that leads to it.
-/

namespace RecordFilter

/-- A column of the base table, named by the table, or of a joined one, named by its alias. -/
structure ColumnRef where
  table : String
  column : String
deriving DecidableEq

structure JoinSpec (κ : Type) where
  /-- The relations from the base record, dotted. -/
  relationPath : String
  tableAlias : String
  table : String
  parentAlias : String
  localColumn : String
  foreignColumn : String
  schema : RecordSchema κ
deriving DecidableEq

structure ResolvedField (κ : Type) where
  path : String
  /-- The relations followed before the leaf. -/
  hops : List String
  leaf : String
  kind : ColumnKind
  column : ColumnRef
  joins : List (JoinSpec κ)
deriving DecidableEq

def ResolvedField.read {κ : Type} (f : ResolvedField κ) (r : Record) : Value :=
  r.read f.hops f.leaf

def aliasSeparator : String := "__"

def joinAlias (relationPath : String) : String :=
  "j_" ++ Text.replaceChar '.' aliasSeparator relationPath

def projectionAlias (relationPath column : String) : String :=
  Text.replaceChar '.' aliasSeparator relationPath ++ aliasSeparator ++ column

def extendPath (path name : String) : String := if path.isEmpty then name else path ++ "." ++ name

structure RelationWalk (κ : Type) where
  joins : List (JoinSpec κ)
  hops : List String
  owner : RecordSchema κ

section
variable {κ : Type} (catalog : Catalog κ)

def JoinSpec.ofRelation (relationPath parentAlias : String) (r : RelationDef κ) : JoinSpec κ :=
  { relationPath
    tableAlias := joinAlias relationPath
    table := (catalog r.target).table
    parentAlias
    localColumn := r.localColumn
    foreignColumn := r.foreignColumn
    schema := catalog r.target }

/-- Follows relations from the schema `owner`, reached under `parentAlias` by `path`. -/
def walkRelations (owner : RecordSchema κ) (parentAlias path : String) :
    List String → Option (RelationWalk κ)
  | [] => some ⟨[], [], owner⟩
  | segment :: segments => do
    let r ← owner.findRelation? segment
    let join := JoinSpec.ofRelation catalog (extendPath path r.name) parentAlias r
    let walk ← walkRelations join.schema join.tableAlias join.relationPath segments
    return { walk with joins := join :: walk.joins, hops := r.name :: walk.hops }

def RecordSchema.joinsOf? (schema : RecordSchema κ) (path : String) : Option (List (JoinSpec κ)) :=
  (walkRelations catalog schema schema.table "" (Text.splitDots path)).map (·.joins)

/-- The field a path names: every segment but the last a relation, the last a field. -/
def RecordSchema.fieldAt? (schema : RecordSchema κ) (path : String) : Option (ResolvedField κ) := do
  let segments := Text.splitDots path
  let walk ← walkRelations catalog schema schema.table "" segments.dropLast
  let leaf ← walk.owner.findField? (← segments.getLast?)
  return { path
           hops := walk.hops
           leaf := leaf.name
           kind := leaf.kind
           column := ⟨((walk.joins.getLast?).map (·.tableAlias)).getD schema.table, leaf.column⟩
           joins := walk.joins }

end

def pathDepth (path : String) : Nat := (Text.splitDots path).length

end RecordFilter
