import RecordFilter.Proofs.Query.OrderText
import RecordFilter.Proofs.Query.WhereText
import RecordFilter.Proofs.Sql.Statement

/-!
# The texts of compiled queries

A database reads each text of a compiled query as the statement it stands for, and so it does the
text for all rows, which has the same columns and joins and no condition.
-/

namespace RecordFilter.CompiledQuery

open Sql

variable {κ : Type}

theorem filters_eq_nil_of_condition_eq_none {q : CompiledQuery κ} {d : Dialect}
    (h : (q.toSql d).condition = none) : q.filters = [] := by
  have hJoined : joinPredicates q.logic (filterPredicates {} q.filters).1 = none := h
  cases hFilters : q.filters with
  | nil => rfl
  | cons f fs =>
    rw [hFilters, filterPredicates, joinPredicates] at hJoined
    split at hJoined <;> cases hJoined

theorem readable_toSql (q : CompiledQuery κ) (d : Dialect) : (q.toSql d).Readable where
  grouped _ := wellGrouped_condition
  positions _ := countsFrom_condition
  columns _ := exists_column_of_mem_order

theorem readable_toUnfilteredSql (q : CompiledQuery κ) (d : Dialect) :
    (q.toUnfilteredSql d).Readable where
  grouped _ hp := by cases hp
  positions _ hp := by cases hp
  columns t ht := by
    obtain ⟨f, -, rfl⟩ := Option.map_eq_some_iff.mp (Option.mem_toList.mp ht)
    exact ⟨_, rfl⟩

section
variable (q : CompiledQuery κ) (d : Dialect)

theorem readStatement?_countText :
    readStatement? d (q.toSql d).countText = some (.count (q.toSql d).source) :=
  Query.readStatement?_countText (q.readable_toSql d)

theorem readStatement?_pageText (p : Page) :
    readStatement? d ((q.toSql d).pageText p) =
      some (.select q.schema.table (q.toSql d).items (q.toSql d).source
        ((q.toSql d).order.map (OrderTerm.asRead d))
        (some ⟨Query.rowNumber p.size, Query.rowNumber p.offset⟩)) :=
  Query.readStatement?_pageText (q.readable_toSql d) p

theorem readStatement?_unfilteredText :
    readStatement? d (q.toUnfilteredSql d).rowsText =
      some (.select q.schema.table (q.toSql d).items ⟨q.schema.table, (q.toSql d).joins, none⟩
        ((q.toUnfilteredSql d).order.map (OrderTerm.asRead d)) none) :=
  Query.readStatement?_rowsText (q.readable_toUnfilteredSql d)

end

end RecordFilter.CompiledQuery
