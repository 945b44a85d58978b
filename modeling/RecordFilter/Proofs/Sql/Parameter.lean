import RecordFilter.Sql.Evaluate
import RecordFilter.Sql.Lowering

/-!
# Parameters bound one after another

What is bound later leaves the values bound before in their positions, so a term for a parameter
keeps its meaning while the rest of a query is rendered.
-/

namespace RecordFilter

open Sql

namespace Parameters

/-- The later list keeps what is bound in the earlier one, and where. -/
def Extends (later earlier : Parameters) : Prop := earlier.values <+: later.values

theorem Extends.refl (ps : Parameters) : ps.Extends ps := List.prefix_rfl

theorem Extends.trans {as bs cs : Parameters} (h : as.Extends bs) (h' : bs.Extends cs) :
    as.Extends cs :=
  List.IsPrefix.trans h' h

theorem push_snd (ps : Parameters) (p : Parameter) : (ps.push p).2 = ps.size + 1 := rfl

theorem size_push (ps : Parameters) (p : Parameter) : (ps.push p).1.size = ps.size + 1 :=
  List.length_append

theorem push_extends (ps : Parameters) (p : Parameter) : (ps.push p).1.Extends ps :=
  List.prefix_append ..

theorem Extends.at?_eq {later earlier : Parameters} (h : later.Extends earlier) {n : Nat}
    {p : Parameter} (hp : earlier.at? n = some p) : later.at? n = some p := by
  obtain ⟨hLt, hGet⟩ := List.getElem?_eq_some_iff.mp hp
  exact (List.prefix_iff_getElem?.mp h (n - 1) hLt).trans (congrArg some hGet)

variable {α : Type}

theorem eval_bind {ps later : Parameters} {p : Parameter} {row : α → StoredValue}
    (h : later.Extends (ps.bind p : Term α × Parameters).2) :
    (ps.bind p : Term α × Parameters).1.eval row later = .ofParameter p := by
  have hAt : later.at? (ps.push p).2 = some p := h.at?_eq (at?_push ps p)
  simp only [bind, Term.eval, hAt]

end Parameters

namespace Condition

variable {α : Type}

theorem predicate_extends (e : Term α) (ps : Parameters) (c : Condition) :
    (c.predicate e ps).2.Extends ps := by
  cases c with
  | text test needle negated => exact ps.push_extends _
  | empty negated blankText => cases negated <;> cases blankText <;> exact .refl ps
  | compare op operand => exact ps.push_extends _
  | within lower upper upperInclusive negated =>
    exact (Parameters.push_extends _ _).trans (ps.push_extends _)

theorem predicateOrNull_extends (e : Term α) (ps : Parameters) (c : Condition) :
    (c.predicateOrNull e ps).2.Extends ps :=
  c.predicate_extends e ps

end Condition

end RecordFilter
