import RecordFilter.Condition.Basic
import RecordFilter.Sql.Dialect

/-!
# SQL expressions

The terms and predicates that queries are made of, and their text in a dialect. The text is built
from the tree alone: a filter value appears in it only as the placeholder of a parameter. `α` is
the type of columns. Parentheses that the text needs are nodes of the tree.
-/

namespace RecordFilter.Sql

inductive Term (α : Type) where
  | column (c : α)
  /-- The parameter at a position, counted from 1. -/
  | parameter (position : Nat)
  | integer (n : Nat)
  | emptyText
  | fold (e : Term α)
  | add (a b : Term α)
  /-- The remainder that has the sign of the left side. -/
  | remainder (a b : Term α)
deriving DecidableEq

inductive Predicate (α : Type) where
  | isNull (e : Term α)
  | isNotNull (e : Term α)
  | compare (op : Comparison) (a b : Term α)
  /-- A pattern match with backslash as the escape. -/
  | like (e pattern : Term α)
  /-- Negation, which brings its own parentheses. -/
  | not (p : Predicate α)
  | and (p q : Predicate α)
  | or (p q : Predicate α)
  | group (p : Predicate α)
deriving DecidableEq

inductive NullPlace where
  | first
  | last
deriving DecidableEq

inductive OrderTerm (α : Type) where
  /-- A flag that is 0 for what comes first, null or not, and 1 for the rest. -/
  | nullFlag (e : Term α) (nulls : NullPlace)
  /-- A value in a direction, by bytes if asked for; nulls as the database has it unless placed. -/
  | value (e : Term α) (byBytes : Bool) (direction : Direction) (nulls : Option NullPlace)
deriving DecidableEq

variable {α : Type}

/-- The time of day of microseconds since the start of 1970. Adding a day between two remainders
makes the result non-negative for times before 1970 too. -/
def Term.timeOfDay (e : Term α) : Term α :=
  let day : Term α := .integer microsPerDay
  .remainder (.add (.remainder e day) day) day

def Term.text (d : Dialect) (column : α → String) : Term α → String
  | .column c => column c
  | .parameter n => d.placeholder n
  | .integer n => n.repr
  | .emptyText => "''"
  | .fold e => d.foldText (e.text d column)
  | .add a b => "(" ++ a.text d column ++ " + " ++ b.text d column ++ ")"
  | .remainder a b => "(" ++ a.text d column ++ " % " ++ b.text d column ++ ")"

def Predicate.text (d : Dialect) (column : α → String) : Predicate α → String
  | .isNull e => e.text d column ++ " IS NULL"
  | .isNotNull e => e.text d column ++ " IS NOT NULL"
  | .compare op a b => a.text d column ++ " " ++ Named.name op ++ " " ++ b.text d column
  | .like e pattern => e.text d column ++ " LIKE " ++ pattern.text d column ++ " ESCAPE '\\'"
  | .not p => "NOT (" ++ p.text d column ++ ")"
  | .and p q => p.text d column ++ " AND " ++ q.text d column
  | .or p q => p.text d column ++ " OR " ++ q.text d column
  | .group p => "(" ++ p.text d column ++ ")"

def directionText : Direction → String
  | .asc => "ASC"
  | .desc => "DESC"

def NullPlace.text : NullPlace → String
  | first => "NULLS FIRST"
  | last => "NULLS LAST"

def OrderTerm.text (d : Dialect) (column : α → String) : OrderTerm α → String
  | .nullFlag e .last => "CASE WHEN " ++ e.text d column ++ " IS NULL THEN 1 ELSE 0 END"
  | .nullFlag e .first => "CASE WHEN " ++ e.text d column ++ " IS NULL THEN 0 ELSE 1 END"
  | .value e byBytes direction nulls =>
    let key := if byBytes then d.binaryOrder (e.text d column) else e.text d column
    let place := match nulls with
      | some p => " " ++ p.text
      | none => ""
    key ++ " " ++ directionText direction ++ place

/-- The terms that order by a value with nulls in a given place. One dialect has no syntax for the
place of nulls and sorts by a flag first. -/
def orderTerms (d : Dialect) (e : Term α) (byBytes : Bool) (direction : Direction)
    (nulls : NullPlace) : List (OrderTerm α) :=
  match d with
  | .sqlite => [.nullFlag e nulls, .value e byBytes direction none]
  | .postgres => [.value e byBytes direction (some nulls)]

def orderText (d : Dialect) (column : α → String) (terms : List (OrderTerm α)) : String :=
  ", ".intercalate (terms.map fun t => t.text d column)

end RecordFilter.Sql
