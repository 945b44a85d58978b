import RecordFilter.Proofs.Query.Order
import RecordFilter.Proofs.Sql.Clauses

/-!
# The ORDER BY clause as text

Read back as SQL, the clause of a query orders rows as the query orders the records stored in them:
text by bytes, numbers by value, and nulls last whatever the direction. It does not matter by which
collation the database would sort text on its own.
-/

namespace RecordFilter

open Sql

section
variable {α : Type} {own : Collation} {d : Dialect} {ps : Parameters} {a b : α → StoredValue}

/-- What a clause leaves unsaid is what the dialect does anyway. -/
theorem OrderTerm.orderBy_asRead (t : OrderTerm α) :
    (t.asRead d).orderBy (d.collation own) d ps a b = t.orderBy (d.collation own) d ps a b := by
  cases t with
  | nullFlag e nulls => rfl
  | value e byBytes direction nulls =>
    cases d with
    | sqlite =>
      have hBytes (asked : Bool) :
          (if asked then Collation.bytes else Dialect.sqlite.collation own) = .bytes := by
        cases asked <;> rfl
      simp only [OrderTerm.asRead, OrderTerm.orderBy, hBytes]
    | postgres => simp only [OrderTerm.asRead, decide_true, Bool.and_true]

theorem orderRowsBy_map_asRead (terms : List (OrderTerm α)) :
    orderRowsBy (d.collation own) d ps (terms.map (OrderTerm.asRead d)) a b =
      orderRowsBy (d.collation own) d ps terms a b := by
  induction terms with
  | nil => rfl
  | cons t terms ih =>
    rw [List.map_cons, orderRowsBy, orderRowsBy, OrderTerm.orderBy_asRead, ih]

end

variable {κ : Type}

theorem SortKey.exists_column_of_mem_terms {d : Dialect} {k : SortKey κ} {t : OrderTerm ColumnRef}
    (h : t ∈ k.terms d) : ∃ c, t.term = .column c := by
  refine ⟨k.field.column, ?_⟩
  cases d with
  | sqlite =>
    rcases List.mem_cons.mp h with rfl | h
    · rfl
    · obtain rfl := List.mem_singleton.mp h
      rfl
  | postgres =>
    obtain rfl := List.mem_singleton.mp h
    rfl

theorem CompiledQuery.exists_column_of_mem_order {q : CompiledQuery κ} {d : Dialect}
    {t : OrderTerm ColumnRef} (h : t ∈ (q.toSql d).order) : ∃ c, t.term = .column c := by
  obtain ⟨k, -, ht⟩ := List.mem_flatMap.mp h
  exact SortKey.exists_column_of_mem_terms ht

theorem CompiledQuery.readOrder?_text (q : CompiledQuery κ) (d : Dialect) :
    readOrder? d (q.toSql d).orderText = some ((q.toSql d).order.map (OrderTerm.asRead d)) :=
  readOrder?_orderText d fun _ => exists_column_of_mem_order

/-- How an ORDER BY clause, read by the dialect, orders two rows. Nothing is said of a clause that
cannot be read. -/
def clauseOrder? (d : Dialect) (own : Collation) (clause : String) (ps : Parameters)
    (a b : ColumnRef → StoredValue) : Option Ordering :=
  (readOrder? d clause).map fun terms => orderRowsBy (d.collation own) d ps terms a b

namespace CompiledQuery

/-- The ORDER BY clause of a query orders rows as the query orders their records. Keys compare by
the data types of their columns, as compilation leaves them (`Specification.dataType_of_compile`). -/
theorem clauseOrder?_orderText {q : CompiledQuery κ} (d : Dialect) (own : Collation)
    {a b : ColumnRef → StoredValue} {r s : Record}
    (hType : ∀ k ∈ q.sort, k.dataType = k.field.kind.dataType)
    (hr : ∀ k ∈ q.sort, k.field.StoredAsIn a r) (hs : ∀ k ∈ q.sort, k.field.StoredAsIn b s) :
    clauseOrder? d own (q.toSql d).orderText (q.toSql d).parameters a b = some (q.order r s) := by
  rw [clauseOrder?, q.readOrder?_text, Option.map_some, orderRowsBy_map_asRead]
  exact congrArg some (orderRowsBy_flatMap_terms d _ hType hr hs)

end CompiledQuery

namespace Shelf

def books : RecordSchema Unit :=
  { name := "Book"
    table := "books"
    fields := [⟨"title", "title", .text⟩, ⟨"price", "price", .real⟩] }

def byPrice : Specification := { sort := [⟨"price", .desc⟩, ⟨"title", .asc⟩] }

def title : ResolvedField Unit := ⟨"title", [], "title", .text, ⟨"books", "title"⟩, []⟩

def price : ResolvedField Unit := ⟨"price", [], "price", .real, ⟨"books", "price"⟩, []⟩

def byPriceQuery : CompiledQuery Unit :=
  { schema := books
    logic := .and
    filters := []
    sort := [⟨price, .number, .desc⟩, ⟨title, .text, .asc⟩]
    joins := [] }

def book (name : String) : Record := .mk [("title", .text name)] []

def row (name : String) (c : ColumnRef) : StoredValue :=
  if c = ⟨"books", "title"⟩ then .text name else .null

theorem capitals_come_first :
    clauseOrder? .postgres (fun _ _ => .eq) (byPriceQuery.toSql .postgres).orderText
      (byPriceQuery.toSql .postgres).parameters (row "Zinc") (row "amber") = some .lt := by
  have hCompile : ∃ resolver', (byPrice.compile (fun _ => books) books).outcome
      { maxDepth := 1, policy := .reject } = (.ok byPriceQuery, resolver') := ⟨_, rfl⟩
  obtain ⟨resolver', hCompile⟩ := hCompile
  have hStored (name : String) :
      ∀ k ∈ byPriceQuery.sort, k.field.StoredAsIn (row name) (book name) := by
    intro k hk
    rcases List.mem_cons.mp hk with rfl | hk
    · rfl
    · obtain rfl := List.mem_singleton.mp hk
      rfl
  exact CompiledQuery.clauseOrder?_orderText .postgres (fun _ _ => .eq)
    (Specification.dataType_of_compile hCompile) (hStored "Zinc") (hStored "amber")

end Shelf

end RecordFilter
