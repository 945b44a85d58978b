import RecordFilter.Query.Basic
import RecordFilter.Sql.Like
import RecordFilter.Sql.Query

/-!
# Compiled queries as SQL

Every condition becomes a predicate on its column, with its operands bound as parameters in the
order in which they stand. A condition that holds of null says so in front of its test, because a
comparison with null is never true. Every column is qualified by its table or alias, and each
filter is in parentheses.
-/

namespace RecordFilter

open Sql

/-- A term for a value that is bound after the parameters so far. -/
def Parameters.bind {α : Type} (ps : Parameters) (p : Parameter) : Term α × Parameters :=
  let (ps, n) := ps.push p
  (.parameter n, ps)

def Projection.term {α : Type} (p : Projection) (column : α) : Term α :=
  match p with
  | identity => .column column
  | timeOfDay => .timeOfDay (.column column)

def TextTest.pattern (test : TextTest) (needle : String) : String :=
  match test with
  | equals => needle
  | contains => "%" ++ escapeLike needle ++ "%"
  | startsWith => escapeLike needle ++ "%"
  | endsWith => "%" ++ escapeLike needle

namespace Condition

variable {α : Type}

def negateIf (negated : Bool) (p : Predicate α) : Predicate α := if negated then .not p else p

/-- The test of a condition on a term that is not null, and the parameters with its own. -/
def predicate (e : Term α) (ps : Parameters) : Condition → Predicate α × Parameters
  | empty false true => (.or (.isNull e) (.compare .eq e .emptyText), ps)
  | empty true true => (.and (.isNotNull e) (.compare .ne e .emptyText), ps)
  | empty false false => (.isNull e, ps)
  | empty true false => (.isNotNull e, ps)
  | text test needle negated =>
    let (value, ps) := ps.bind (.text (test.pattern needle))
    let p : Predicate α := match test with
      | .equals => .compare .eq (.fold e) value
      | _ => .like (.fold e) value
    (negateIf negated p, ps)
  | compare op operand =>
    let (value, ps) := ps.bind (.ofOperand operand)
    (.compare op e value, ps)
  | within lower upper upperInclusive negated =>
    let (low, ps) := ps.bind (.ofOperand lower)
    let (high, ps) := ps.bind (.ofOperand upper)
    let above : Predicate α := .compare .ge e low
    let below : Predicate α := .compare (if upperInclusive then .le else .lt) e high
    (negateIf negated (.and above below), ps)

def isEmptiness : Condition → Bool
  | empty _ _ => true
  | _ => false

/-- The predicate of a condition on any term, null included. -/
def predicateOrNull (e : Term α) (ps : Parameters) (c : Condition) : Predicate α × Parameters :=
  let (p, ps) := c.predicate e ps
  (if !c.isEmptiness && c.matchesNull then .or (.isNull e) p else p, ps)

end Condition

variable {κ : Type}

def SortKey.terms (d : Dialect) (k : SortKey κ) : List (OrderTerm ColumnRef) :=
  orderTerms d (.column k.field.column) (k.dataType = .text) k.direction .last

def JoinSpec.clause (j : JoinSpec κ) : JoinClause :=
  ⟨j.table, j.tableAlias, j.foreignColumn, j.parentAlias, j.localColumn⟩

def JoinSpec.items (j : JoinSpec κ) : List SelectItem :=
  j.schema.fields.map fun f => ⟨⟨j.tableAlias, f.column⟩, projectionAlias j.relationPath f.column⟩

namespace CompiledQuery

/-- The predicates of the filters, each in parentheses, and all their parameters. -/
def filterPredicates (ps : Parameters) :
    List (CompiledFilter κ) → List (Predicate ColumnRef) × Parameters
  | [] => ([], ps)
  | f :: fs =>
    let c := f.condition
    let (p, ps) := c.condition.predicateOrNull (c.projection.term f.field.column) ps
    let (rest, ps) := filterPredicates ps fs
    (.group p :: rest, ps)

def joinPredicates {α : Type} (logic : Logic) : List (Predicate α) → Option (Predicate α)
  | [] => none
  | p :: ps => match joinPredicates logic ps with
    | none => some p
    | some rest => some (match logic with
      | .and => .and p rest
      | .or => .or p rest)

def toSql (q : CompiledQuery κ) (d : Dialect) : Sql.Query :=
  let (predicates, parameters) := filterPredicates {} q.filters
  { dialect := d
    table := q.schema.table
    joins := q.joins.map JoinSpec.clause
    items := q.joins.flatMap JoinSpec.items
    condition := joinPredicates q.logic predicates
    order := q.sort.flatMap (SortKey.terms d)
    parameters }

/-- The query for every row with its joined relations, in the order of the primary key. -/
def toUnfilteredSql (q : CompiledQuery κ) (d : Dialect) : Sql.Query :=
  let key (f : FieldDef) : OrderTerm ColumnRef :=
    .value (.column ⟨q.schema.table, f.column⟩) false .asc none
  { q.toSql d with
    condition := none
    order := (q.schema.primaryKeyField?.map key).toList
    parameters := {} }

end CompiledQuery

end RecordFilter
