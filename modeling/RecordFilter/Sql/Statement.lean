import RecordFilter.Sql.Reading

/-!
# Reading SQL statements

A statement counts rows or selects columns of them. The rows come from a table and the tables joined
to it, as far as the condition keeps them, and a selection can be sorted and cut. Its clauses begin
with words that stand in no clause themselves; names and texts are quoted, so none of them is taken
for such a word.
-/

namespace RecordFilter.Sql

structure RowSource where
  table : String
  joins : List JoinClause
  condition : Option (Predicate ColumnRef)
deriving DecidableEq

/-- So many rows behind so many that are left out. -/
structure RowWindow where
  limit : Nat
  offset : Nat
deriving DecidableEq

inductive Statement where
  | count (source : RowSource)
  /-- All columns of the table `whole` and then the items. -/
  | select (whole : String) (items : List SelectItem) (source : RowSource)
      (order : List (OrderTerm ColumnRef)) (window : Option RowWindow)
deriving DecidableEq

def readItems? : List Lexeme → Option (List SelectItem)
  | [] => some []
  | .mark ',' :: .identifier table :: .mark '.' :: .identifier column :: .word "AS" ::
      .identifier output :: ts => (readItems? ts).map (⟨⟨table, column⟩, output⟩ :: ·)
  | _ => none

def readColumns? : List Lexeme → Option (String × List SelectItem)
  | .identifier whole :: .mark '.' :: .mark '*' :: ts =>
    (readItems? ts).map fun items => (whole, items)
  | _ => none

def readSelect? (text : String) : Option (String × List SelectItem) :=
  (lexemes? text.toList).bind readColumns?

def readJoins? : List Lexeme → Option (List JoinClause)
  | [] => some []
  | .word "LEFT" :: .word "JOIN" :: .identifier table :: .word "AS" :: .identifier tableAlias ::
      .word "ON" :: .identifier left :: .mark '.' :: .identifier foreignColumn :: .operator .eq ::
      .identifier parentAlias :: .mark '.' :: .identifier localColumn :: ts =>
    if left = tableAlias then
      (readJoins? ts).map (⟨table, tableAlias, foreignColumn, parentAlias, localColumn⟩ :: ·)
    else none
  | _ => none

def readPredicate? (d : Dialect) (ts : List Lexeme) : Option (Predicate ColumnRef) := do
  match ← read d (readingDepth ts.length) .disjunction ts with
  | (.predicate p, []) => some p
  | _ => none

def readOrdering? (d : Dialect) (ts : List Lexeme) : Option (List (OrderTerm ColumnRef)) := do
  readOrderTerms d (readingDepth ts.length) (ts.length + 1) (← after? [.word "BY"] ts)

/-- What follows the word LIMIT. A row number is a signed 64-bit integer. -/
def readWindow? : List Lexeme → Option RowWindow
  | [.number limit, .word "OFFSET", .number offset] =>
    if limit < 2 ^ 63 ∧ offset < 2 ^ 63 then some ⟨limit, offset⟩ else none
  | _ => none

/-- The lexemes of a statement, clause by clause, without the words the clauses begin with. -/
structure Clauses where
  selected : List Lexeme
  source : Option (List Lexeme)
  condition : Option (List Lexeme)
  order : Option (List Lexeme)
  window : Option (List Lexeme)

/-- What stands before a word, and what stands behind it if it is there. -/
def cutAt (w : String) : List Lexeme → List Lexeme × Option (List Lexeme)
  | [] => ([], none)
  | t :: ts =>
    if t = .word w then ([], some ts)
    else
      let (before, after) := cutAt w ts
      (t :: before, after)

def cutClauses (ts : List Lexeme) : Clauses :=
  let (ts, window) := cutAt "LIMIT" ts
  let (ts, order) := cutAt "ORDER" ts
  let (ts, condition) := cutAt "WHERE" ts
  let (selected, source) := cutAt "FROM" ts
  ⟨selected, source, condition, order, window⟩

def readClause {α : Type} (read : List Lexeme → Option α) :
    Option (List Lexeme) → Option (Option α)
  | none => some none
  | some ts => (read ts).map some

namespace Clauses

variable (d : Dialect) (c : Clauses)

def readSource? : Option RowSource := do
  match ← c.source with
  | .identifier table :: ts =>
    return ⟨table, ← readJoins? ts, ← readClause (readPredicate? d) c.condition⟩
  | _ => none

def read? : Option Statement := do
  let source ← c.readSource? d
  let order ← readClause (readOrdering? d) c.order
  let window ← readClause readWindow? c.window
  if c.selected = [.word "COUNT", .mark '(', .mark '*', .mark ')'] then
    if order.isNone && window.isNone then return .count source else none
  else
    let (whole, items) ← readColumns? c.selected
    return .select whole items source (order.getD []) window

end Clauses

def readStatement? (d : Dialect) (text : String) : Option Statement := do
  let ts ← lexemes? text.toList
  (cutClauses (← after? [.word "SELECT"] (numbered 0 ts))).read? d

end RecordFilter.Sql
