import RecordFilter.Sql.Evaluate

/-!
# Sorting by a collation

A database may sort text by a collation of its own. What a term asks to be sorted by bytes is
sorted by bytes all the same, and one of the dialects sorts all text so.
-/

namespace RecordFilter

namespace Sql

abbrev Collation := String → String → Ordering

/-- The order of code points, which is that of the bytes. -/
def Collation.bytes : Collation := fun a b => compare a b

/-- The order of two values that are not null; texts are compared by the collation. -/
def StoredValue.orderBy (c : Collation) : StoredValue → StoredValue → Ordering
  | text a, text b => c a b
  | a, b => (a.compare? b).getD .eq

theorem StoredValue.orderBy_integer {c : Collation} (a b : Int) :
    (integer a).orderBy c (integer b) = compare a b := rfl

variable {α : Type}

/-- The order of two rows by one term, where the database sorts text by the collation. -/
def OrderTerm.orderBy (own : Collation) (d : Dialect) (ps : Parameters) (t : OrderTerm α)
    (a b : α → StoredValue) : Ordering :=
  match t with
  | .nullFlag e nulls => compare (nullRank nulls (e.eval a ps)) (nullRank nulls (e.eval b ps))
  | .value e byBytes direction nulls =>
    let place := nulls.getD (Dialect.defaultNulls d direction)
    match (e.eval a ps).isNull, (e.eval b ps).isNull with
    | true, true => .eq
    | true, false => place.order
    | false, true => place.order.swap
    | false, false =>
      direction.apply ((e.eval a ps).orderBy (if byBytes then .bytes else own) (e.eval b ps))

def orderRowsBy (own : Collation) (d : Dialect) (ps : Parameters) (terms : List (OrderTerm α))
    (a b : α → StoredValue) : Ordering :=
  match terms with
  | [] => .eq
  | t :: ts => (t.orderBy own d ps a b).then (orderRowsBy own d ps ts a b)

theorem orderRowsBy_append (own : Collation) (d : Dialect) (ps : Parameters)
    (ts us : List (OrderTerm α)) (a b : α → StoredValue) :
    orderRowsBy own d ps (ts ++ us) a b =
      (orderRowsBy own d ps ts a b).then (orderRowsBy own d ps us a b) := by
  induction ts with
  | nil => rfl
  | cons t ts ih =>
    rw [List.cons_append, orderRowsBy, orderRowsBy, ih, Ordering.then_assoc]

/-- Both dialects place nulls as asked and turn around only the values. -/
theorem orderRowsBy_orderTerms (own : Collation) (d : Dialect) (ps : Parameters) (e : Term α)
    (byBytes : Bool) (direction : Direction) (nulls : NullPlace) (a b : α → StoredValue) :
    orderRowsBy own d ps (orderTerms d e byBytes direction nulls) a b =
      match (e.eval a ps).isNull, (e.eval b ps).isNull with
      | true, true => .eq
      | true, false => nulls.order
      | false, true => nulls.order.swap
      | false, false =>
        direction.apply ((e.eval a ps).orderBy (if byBytes then .bytes else own) (e.eval b ps)) := by
  cases d with
  | sqlite =>
    simp only [orderTerms, orderRowsBy, OrderTerm.orderBy, nullRank, Ordering.then_eq]
    cases (e.eval a ps).isNull <;> cases (e.eval b ps).isNull <;> cases nulls <;> rfl
  | postgres =>
    simp only [orderTerms, orderRowsBy, OrderTerm.orderBy, Ordering.then_eq, Option.getD_some]

end Sql

/-- What a database of the dialect sorts text by, given its collation. -/
def Dialect.collation (d : Dialect) (own : Sql.Collation) : Sql.Collation :=
  match d with
  | sqlite => .bytes
  | postgres => own

end RecordFilter
