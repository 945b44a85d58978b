import RecordFilter.Sql.Lexeme
import RecordFilter.Sql.Query

/-!
# Reading SQL expressions

How a database reads the clauses of a query: OR binds weakest, then AND, NOT, the comparisons, `+`,
and `%`. Rows of AND and of OR are read from the right, which does not matter to their meaning; rows
of comparisons, sums or remainders without parentheses are not read at all. Parentheses leave
nothing behind.
-/

namespace RecordFilter

def Dialect.foldName : Dialect → String
  | sqlite => "LOWER"
  | postgres => "TRANSLATE"

namespace Sql

def foldArguments : Dialect → List Lexeme
  | .sqlite => []
  | .postgres => [.mark ',', .literal "ABCDEFGHIJKLMNOPQRSTUVWXYZ",
      .mark ',', .literal "abcdefghijklmnopqrstuvwxyz"]

inductive Phrase where
  | term (e : Term ColumnRef)
  | predicate (p : Predicate ColumnRef)
deriving DecidableEq

namespace Phrase

def fold? : Phrase → Option Phrase
  | term e => some (term (.fold e))
  | predicate _ => none

def arithmetic? (f : Term ColumnRef → Term ColumnRef → Term ColumnRef) :
    Phrase → Phrase → Option Phrase
  | term a, term b => some (term (f a b))
  | _, _ => none

def test? (f : Term ColumnRef → Predicate ColumnRef) : Phrase → Option Phrase
  | term e => some (predicate (f e))
  | predicate _ => none

def comparison? (f : Term ColumnRef → Term ColumnRef → Predicate ColumnRef) :
    Phrase → Phrase → Option Phrase
  | term a, term b => some (predicate (f a b))
  | _, _ => none

def negation? : Phrase → Option Phrase
  | term _ => none
  | predicate p => some (predicate (.not p))

def junction? (f : Predicate ColumnRef → Predicate ColumnRef → Predicate ColumnRef) :
    Phrase → Phrase → Option Phrase
  | predicate p, predicate q => some (predicate (f p q))
  | _, _ => none

end Phrase

/-- What follows the expected lexemes, if they stand here. -/
def after? (expected ts : List Lexeme) : Option (List Lexeme) := expected.isPrefixOf? ts

abbrev Reader := List Lexeme → Option (Phrase × List Lexeme)

/-- One operand, or two with an operator between them. -/
def readBinary (op : Lexeme) (combine : Phrase → Phrase → Option Phrase) (left right : Reader) :
    Reader := fun ts => do
  let (a, ts) ← left ts
  match after? [op] ts with
  | some ts =>
    let (b, ts) ← right ts
    return (← combine a b, ts)
  | none => return (a, ts)

def readNegation (operand other : Reader) : Reader := fun ts =>
  match after? [.word "NOT"] ts with
  | some ts => do
    let (a, ts) ← operand ts
    return (← a.negation?, ts)
  | none => other ts

def readNullTest (a : Phrase) : Reader := fun ts =>
  match after? [.word "NULL"] ts with
  | some ts => return (← a.test? .isNull, ts)
  | none => do
    let ts ← after? [.word "NOT", .word "NULL"] ts
    return (← a.test? .isNotNull, ts)

def readPattern (a : Phrase) (operand : Reader) : Reader := fun ts => do
  let (b, ts) ← operand ts
  let ts ← after? [.word "ESCAPE", .literal "\\"] ts
  return (← Phrase.comparison? .like a b, ts)

def readComparison (operand : Reader) : Reader := fun ts => do
  let (a, ts) ← operand ts
  match ts with
  | .operator op :: ts =>
    let (b, ts) ← operand ts
    return (← Phrase.comparison? (.compare op) a b, ts)
  | .word w :: rest =>
    if w = "IS" then readNullTest a rest
    else if w = "LIKE" then readPattern a operand rest
    else return (a, ts)
  | _ => return (a, ts)

def readColumn (table : String) : Reader
  | .mark m :: .identifier column :: ts =>
    if m = '.' then some (.term (.column ⟨table, column⟩), ts) else none
  | _ => none

def readGroup (inner : Reader) : Reader := fun ts => do
  let (a, ts) ← inner ts
  return (a, ← after? [.mark ')'] ts)

def readFold (d : Dialect) (inner : Reader) : Reader := fun ts => do
  let ts ← after? [.mark '('] ts
  let (a, ts) ← inner ts
  let ts ← after? (foldArguments d ++ [.mark ')']) ts
  return (← a.fold?, ts)

def readPrimary (d : Dialect) (inner : Reader) : Reader
  | .identifier table :: ts => readColumn table ts
  | .placeholder (some n) :: ts => some (.term (.parameter n), ts)
  | .number n :: ts => some (.term (.integer n), ts)
  | .literal s :: ts => if s.isEmpty then some (.term .emptyText, ts) else none
  | .mark m :: ts => if m = '(' then readGroup inner ts else none
  | .word w :: ts => if w = d.foldName then readFold d inner ts else none
  | _ => none

inductive Level where
  | primary
  | product
  | sum
  | comparison
  | negation
  | conjunction
  | disjunction
deriving DecidableEq

/-- Reads a phrase of a level. The first argument bounds the depth of the reading. -/
def read (d : Dialect) : Nat → Level → Reader
  | 0, _ => fun _ => none
  | n + 1, .primary => readPrimary d (read d n .disjunction)
  | n + 1, .product =>
    readBinary (.mark '%') (Phrase.arithmetic? .remainder) (read d n .primary) (read d n .primary)
  | n + 1, .sum =>
    readBinary (.mark '+') (Phrase.arithmetic? .add) (read d n .product) (read d n .product)
  | n + 1, .comparison => readComparison (read d n .sum)
  | n + 1, .negation => readNegation (read d n .negation) (read d n .comparison)
  | n + 1, .conjunction =>
    readBinary (.word "AND") (Phrase.junction? .and) (read d n .negation) (read d n .conjunction)
  | n + 1, .disjunction =>
    readBinary (.word "OR") (Phrase.junction? .or) (read d n .conjunction) (read d n .disjunction)

def readingDepth (length : Nat) : Nat := 8 * length + 7

/-- Gives every placeholder its position: one more than the greatest before it, unless it shows
another. -/
def numbered : Nat → List Lexeme → List Lexeme
  | _, [] => []
  | n, .placeholder none :: ts => .placeholder (some (n + 1)) :: numbered (n + 1) ts
  | n, .placeholder (some m) :: ts => .placeholder (some m) :: numbered (max n m) ts
  | n, t :: ts => t :: numbered n ts

def readCondition? (d : Dialect) (text : String) : Option (Predicate ColumnRef) := do
  let ts ← lexemes? text.toList
  match ← read d (readingDepth ts.length) .disjunction (numbered 0 ts) with
  | (.predicate p, []) => some p
  | _ => none

def readCollation (ts : List Lexeme) : Bool × List Lexeme :=
  match after? [.word "COLLATE", .identifier "C"] ts with
  | some ts => (true, ts)
  | none => (false, ts)

def readDirection (ts : List Lexeme) : Direction × List Lexeme :=
  match after? [.word "DESC"] ts with
  | some ts => (.desc, ts)
  | none => (.asc, (after? [.word "ASC"] ts).getD ts)

def readNulls (ts : List Lexeme) : Option NullPlace × List Lexeme :=
  match after? [.word "NULLS", .word "FIRST"] ts with
  | some ts => (some .first, ts)
  | none => match after? [.word "NULLS", .word "LAST"] ts with
    | some ts => (some .last, ts)
    | none => (none, ts)

/-- What a flag is for null and for the rest, as the place it gives to nulls. -/
def readFlag (ts : List Lexeme) : Option (NullPlace × List Lexeme) :=
  match after? [.word "THEN", .number 1, .word "ELSE", .number 0, .word "END"] ts with
  | some ts => some (.last, ts)
  | none => (after? [.word "THEN", .number 0, .word "ELSE", .number 1, .word "END"] ts).map
      fun ts => (.first, ts)

/-- One term of an ordering. A flag stands without a direction, which is to say it ascends. -/
def readOrderTerm (d : Dialect) (depth : Nat) (ts : List Lexeme) :
    Option (OrderTerm ColumnRef × List Lexeme) :=
  match after? [.word "CASE", .word "WHEN"] ts with
  | some ts => do
    match ← read d depth .disjunction ts with
    | (.predicate (.isNull e), ts) =>
      let (nulls, ts) ← readFlag ts
      return (.nullFlag e nulls, ts)
    | _ => none
  | none => do
    match ← read d depth .sum ts with
    | (.term e, ts) =>
      let (byBytes, ts) := readCollation ts
      let (direction, ts) := readDirection ts
      let (nulls, ts) := readNulls ts
      return (.value e byBytes direction nulls, ts)
    | _ => none

def readOrderTerms (d : Dialect) (depth : Nat) :
    Nat → List Lexeme → Option (List (OrderTerm ColumnRef))
  | 0, _ => none
  | n + 1, ts => do
    match ← readOrderTerm d depth ts with
    | (t, []) => return [t]
    | (t, ts) =>
      let ts ← after? [.mark ','] ts
      return t :: (← readOrderTerms d depth n ts)

def readOrder? (d : Dialect) (text : String) : Option (List (OrderTerm ColumnRef)) := do
  let ts ← lexemes? text.toList
  if ts.isEmpty then return []
  else readOrderTerms d (readingDepth ts.length) (ts.length + 1) (numbered 0 ts)

end Sql

end RecordFilter
