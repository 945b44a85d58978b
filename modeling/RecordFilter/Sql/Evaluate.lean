import RecordFilter.Sql.Expression
import RecordFilter.Sql.Like
import RecordFilter.Sql.Value
import RecordFilter.Text.Fold

/-!
# The meaning of SQL expressions

Terms are evaluated on a row, a function from columns to stored values, with the parameters bound.
Predicates are true, false or unknown, as SQL has it: a comparison with null is unknown, and a row
is kept only if the predicate is true.
-/

namespace RecordFilter.Sql

variable {α : Type}

/-- Arithmetic on integers; on anything else, or by zero, the result is null. -/
def integerArithmetic (f : Int → Int → Int) : StoredValue → StoredValue → StoredValue
  | .integer a, .integer b => .integer (f a b)
  | _, _ => .null

def integerRemainder : StoredValue → StoredValue → StoredValue
  | _, .integer 0 => .null
  | a, b => integerArithmetic Int.tmod a b

def Term.eval (row : α → StoredValue) (ps : Parameters) : Term α → StoredValue
  | .column c => row c
  | .parameter n => match ps.at? n with
    | some p => .ofParameter p
    | none => .null
  | .integer n => .integer n
  | .emptyText => .text ""
  | .fold e => match e.eval row ps with
    | .text s => .text (Text.fold s)
    | v => v
  | .add a b => integerArithmetic (· + ·) (a.eval row ps) (b.eval row ps)
  | .remainder a b => integerRemainder (a.eval row ps) (b.eval row ps)

def and3 : Option Bool → Option Bool → Option Bool
  | some false, _ | _, some false => some false
  | some true, some true => some true
  | _, _ => none

def or3 : Option Bool → Option Bool → Option Bool
  | some true, _ | _, some true => some true
  | some false, some false => some false
  | _, _ => none

def like3 : StoredValue → StoredValue → Option Bool
  | .text s, .text p => some (matchesLike p.toList s.toList)
  | _, _ => none

def Predicate.eval (row : α → StoredValue) (ps : Parameters) : Predicate α → Option Bool
  | .isNull e => some (e.eval row ps).isNull
  | .isNotNull e => some (!(e.eval row ps).isNull)
  | .compare op a b => ((a.eval row ps).compare? (b.eval row ps)).map op.holds
  | .like e pattern => like3 (e.eval row ps) (pattern.eval row ps)
  | .not p => (p.eval row ps).map (!·)
  | .and p q => and3 (p.eval row ps) (q.eval row ps)
  | .or p q => or3 (p.eval row ps) (q.eval row ps)
  | .group p => p.eval row ps

def keeps (condition : Option (Predicate α)) (row : α → StoredValue) (ps : Parameters) : Bool :=
  match condition with
  | none => true
  | some p => p.eval row ps == some true

/-- The place of nulls where a clause names none. -/
def Dialect.defaultNulls : Dialect → Direction → NullPlace
  | .sqlite, .asc | .postgres, .desc => .first
  | .sqlite, .desc | .postgres, .asc => .last

def NullPlace.order : NullPlace → Ordering
  | first => .lt
  | last => .gt

def orderValues (direction : Direction) (nulls : NullPlace) (a b : StoredValue) : Ordering :=
  match a.isNull, b.isNull with
  | true, true => .eq
  | true, false => nulls.order
  | false, true => nulls.order.swap
  | false, false => direction.apply ((a.compare? b).getD .eq)

def nullRank (nulls : NullPlace) (v : StoredValue) : Nat :=
  match nulls with
  | .last => if v.isNull then 1 else 0
  | .first => if v.isNull then 0 else 1

def OrderTerm.order (d : Dialect) (ps : Parameters) (t : OrderTerm α) (a b : α → StoredValue) :
    Ordering :=
  match t with
  | .nullFlag e nulls => compare (nullRank nulls (e.eval a ps)) (nullRank nulls (e.eval b ps))
  | .value e _ direction nulls =>
    orderValues direction (nulls.getD (Dialect.defaultNulls d direction)) (e.eval a ps)
      (e.eval b ps)

def orderRows (d : Dialect) (ps : Parameters) (terms : List (OrderTerm α))
    (a b : α → StoredValue) : Ordering :=
  match terms with
  | [] => .eq
  | t :: ts => (t.order d ps a b).then (orderRows d ps ts a b)

end RecordFilter.Sql
