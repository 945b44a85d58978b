import RecordFilter.Page
import RecordFilter.Schema.Path
import RecordFilter.Sql.Expression
import RecordFilter.Sql.Parameter

/-!
# SQL queries

A query selects all columns of a base table and aliased columns of joined tables, filters by a
predicate with bound parameters, and orders. From one query come the text that counts the rows,
the text of all rows and the text of one page.
-/

namespace RecordFilter.Sql

/-- `LEFT JOIN table AS tableAlias ON tableAlias.foreignColumn = parentAlias.localColumn`. -/
structure JoinClause where
  table : String
  tableAlias : String
  foreignColumn : String
  parentAlias : String
  localColumn : String
deriving DecidableEq

structure SelectItem where
  column : ColumnRef
  output : String
deriving DecidableEq

structure Query where
  dialect : Dialect
  table : String
  joins : List JoinClause
  /-- What is selected besides the columns of the base table. -/
  items : List SelectItem
  condition : Option (Predicate ColumnRef)
  order : List (OrderTerm ColumnRef)
  parameters : Parameters
deriving DecidableEq

def columnText (c : ColumnRef) : String := qualifiedColumn c.table c.column

def JoinClause.text (j : JoinClause) : String :=
  "LEFT JOIN " ++ quoteIdentifier j.table ++ " AS " ++ quoteIdentifier j.tableAlias ++ " ON " ++
    qualifiedColumn j.tableAlias j.foreignColumn ++ " = " ++
    qualifiedColumn j.parentAlias j.localColumn

def SelectItem.text (i : SelectItem) : String :=
  columnText i.column ++ " AS " ++ quoteIdentifier i.output

namespace Query

def tableText (q : Query) : String := quoteIdentifier q.table

def joinTexts (q : Query) : List String := q.joins.map JoinClause.text

def selectText (q : Query) : String :=
  ", ".intercalate ((q.tableText ++ ".*") :: q.items.map SelectItem.text)

def whereText? (q : Query) : Option String := q.condition.map fun p => p.text q.dialect columnText

def orderText (q : Query) : String := Sql.orderText q.dialect columnText q.order

def fromText (q : Query) : String :=
  "FROM " ++ q.tableText ++ String.join (q.joinTexts.map (" " ++ ·)) ++
    match q.whereText? with
    | some text => " WHERE " ++ text
    | none => ""

def countText (q : Query) : String := "SELECT COUNT(*) " ++ q.fromText

def rowsText (q : Query) : String :=
  "SELECT " ++ q.selectText ++ " " ++ q.fromText ++
    if q.order.isEmpty then "" else " ORDER BY " ++ q.orderText

/-- A row number as databases take it, in the signed 64-bit range. -/
def rowNumber (n : Nat) : Nat := min n (2 ^ 63 - 1)

def pageText (q : Query) (p : Page) : String :=
  q.rowsText ++ " " ++ q.dialect.limitOffset (rowNumber p.size) (rowNumber p.offset)

end Query

end RecordFilter.Sql
