import RecordFilter.Proofs.Condition.Rendered
import RecordFilter.Proofs.Query.Compiled
import RecordFilter.Proofs.Sql.Collation

/-!
# Sort keys in memory and as terms of ORDER BY

A key orders two records by their probes, nulls last, and its terms order the rows that store them
in the same way. One dialect says where nulls go, the other sorts by a flag first; neither is
turned around with the values.
-/

namespace RecordFilter

open Sql

theorem Probe.order_eq_orderBy {k : ColumnKind} {v w : Value} {p q : Probe} {a b : StoredValue}
    {c : Collation} (hv : k.cell? v = some a) (hw : k.cell? w = some b)
    (hp : v.probe? k.dataType = some p) (hq : w.probe? k.dataType = some q)
    (hText : k.dataType = .text → c = .bytes) : a.orderBy c b = p.order q := by
  cases k with
  | text =>
    cases v <;> cases hp
    cases w <;> cases hq
    cases hv
    cases hw
    rw [hText rfl]
    rfl
  | boolean =>
    cases v <;> cases hp
    cases w <;> cases hq
    cases hv
    cases hw
    rename_i s t
    cases s <;> cases t <;> rfl
  | timestamp =>
    cases v <;> cases hp
    cases w <;> cases hq
    cases hv
    cases hw
    exact StoredValue.orderBy_integer _ _
  | timeOfDay =>
    rcases DataType.eq_of_cell?_time (ColumnKind.cell?_dataType hv) with ⟨rfl, -⟩ | ⟨t, rfl, rfl⟩
    · cases hp
    rcases DataType.eq_of_cell?_time (ColumnKind.cell?_dataType hw) with ⟨rfl, -⟩ | ⟨u, rfl, rfl⟩
    · cases hq
    cases hp
    cases hq
    exact StoredValue.orderBy_integer t.micros u.micros
  | integer =>
    cases v <;> cases hp
    cases w <;> cases hq
    rename_i m n
    cases m <;> cases hv
    cases n <;> cases hw
    rw [Probe.order, Number.order_of_compare? (Number.compare?_of_integers rfl rfl)]
    rfl
  | real =>
    rcases ColumnKind.eq_of_cell?_real hv with ⟨rfl, -⟩ | ⟨x, rfl, hx, rfl⟩
    · cases hp
    rcases ColumnKind.eq_of_cell?_real hw with ⟨rfl, -⟩ | ⟨y, rfl, hy, rfl⟩
    · cases hq
    cases hp
    cases hq
    have hCompare : (Number.real x).compare? (.real y) = some (compare x.key y.key) := by
      change x.compare? y = _
      rw [Binary64.compare?, hx, hy]
      rfl
    rw [Probe.order, Number.order_of_compare? hCompare]
    rfl

variable {κ : Type}

/-- The cell of a field's column holds what the record has there, in the encoding of the column. -/
def ResolvedField.StoredAsIn (f : ResolvedField κ) (row : ColumnRef → StoredValue) (r : Record) :
    Prop :=
  f.kind.cell? (f.read r) = some (row f.column)

/-- A cell is null exactly for a value without a probe. -/
theorem ColumnKind.isNull_of_cell? {k : ColumnKind} {v : Value} {cell : StoredValue}
    (h : k.cell? v = some cell) :
    v.probe? k.dataType = none ∧ cell.isNull = true ∨
      ∃ p, v.probe? k.dataType = some p ∧ cell.isNull = false := by
  rcases DataType.holdsProbe_of_cell? (cell?_dataType h) with ⟨rfl, rfl⟩ | ⟨p, hp, hCell⟩
  · refine .inl ⟨?_, rfl⟩
    cases k <;> rfl
  · exact .inr ⟨p, hp, Probe.isNull_of_cell? hCell⟩

section
variable {k : SortKey κ} {own : Collation} {a b : ColumnRef → StoredValue} {r s : Record}

theorem SortKey.orderRowsBy_terms (d : Dialect) (ps : Parameters)
    (hType : k.dataType = k.field.kind.dataType) (hr : k.field.StoredAsIn a r)
    (hs : k.field.StoredAsIn b s) : orderRowsBy own d ps (k.terms d) a b = k.order r s := by
  rw [terms, orderRowsBy_orderTerms, Term.eval, Term.eval, order, DataType.order, hType]
  rcases ColumnKind.isNull_of_cell? hr with ⟨hp, ha⟩ | ⟨p, hp, ha⟩ <;>
    rcases ColumnKind.isNull_of_cell? hs with ⟨hq, hb⟩ | ⟨q, hq, hb⟩ <;>
    rw [hp, hq, ha, hb]
  · rfl
  · rfl
  · refine congrArg k.direction.apply (Probe.order_eq_orderBy hr hs hp hq fun hText => ?_)
    rw [if_pos (decide_eq_true hText)]

theorem orderRowsBy_flatMap_terms (d : Dialect) (ps : Parameters) {keys : List (SortKey κ)}
    (hType : ∀ k ∈ keys, k.dataType = k.field.kind.dataType)
    (hr : ∀ k ∈ keys, k.field.StoredAsIn a r) (hs : ∀ k ∈ keys, k.field.StoredAsIn b s) :
    orderRowsBy own d ps (keys.flatMap (SortKey.terms d)) a b = orderByKeys keys r s := by
  induction keys with
  | nil => rfl
  | cons k keys ih =>
    have hRest := ih (fun j hj => hType j (List.mem_cons_of_mem _ hj))
      (fun j hj => hr j (List.mem_cons_of_mem _ hj)) (fun j hj => hs j (List.mem_cons_of_mem _ hj))
    rw [List.flatMap_cons, orderRowsBy_append, hRest, orderByKeys]
    refine congrArg (Ordering.then · _) ?_
    exact SortKey.orderRowsBy_terms d ps (hType k List.mem_cons_self) (hr k List.mem_cons_self)
      (hs k List.mem_cons_self)

end

end RecordFilter
