import RecordFilter.Proofs.Condition.Answer

/-!
# Conditions on null

Nothing is known of a comparison with null, of a pattern match on null and of their negations. A
condition that holds of null says so in front of its test, and the test decides everything else.
-/

namespace RecordFilter

open Sql

theorem Sql.or3_false_left (b : Option Bool) : or3 (some false) b = b := by
  rcases b with _ | _ | _ <;> rfl

theorem Sql.or3_true_left (b : Option Bool) : or3 (some true) b = some true := by
  rcases b with _ | _ | _ <;> rfl

theorem Sql.and3_true_left (b : Option Bool) : and3 (some true) b = b := by
  rcases b with _ | _ | _ <;> rfl

theorem Sql.StoredValue.compare?_null (v : StoredValue) : null.compare? v = none := by
  cases v <;> rfl

namespace Condition

variable {α : Type} {e : Term α} {ps later : Parameters} {row : α → StoredValue} {c : Condition}

theorem eval_predicateOrNull_of_not_null (hNull : (e.eval row later).isNull = false) :
    (c.predicateOrNull e ps).1.eval row later = (c.predicate e ps).1.eval row later := by
  simp only [predicateOrNull]
  split
  · rw [Predicate.eval, Predicate.eval, hNull, or3_false_left]
  · rfl

/-- Nothing is known of the test of a condition on null, unless it is a test for null. -/
theorem eval_predicate_of_null (hc : c.isEmptiness = false) (hNull : e.eval row later = .null) :
    (c.predicate e ps).1.eval row later = none := by
  cases c with
  | text test needle negated =>
    simp only [predicate, eval_negateIf]
    cases test <;> simp [Predicate.eval, Term.eval, hNull, like3, StoredValue.compare?_null]
  | empty negated blankText => cases hc
  | compare op operand => simp [predicate, Predicate.eval, hNull, StoredValue.compare?_null]
  | within lower upper upperInclusive negated =>
    simp [predicate, eval_negateIf, Predicate.eval, hNull, StoredValue.compare?_null, and3]

theorem eval_predicateOrNull_of_null (hc : c.isEmptiness = false)
    (hNull : e.eval row later = .null) :
    (c.predicateOrNull e ps).1.eval row later = some true ↔ c.matchesNull = true := by
  simp only [predicateOrNull, hc]
  cases c.matchesNull with
  | true => simp [Predicate.eval, hNull, StoredValue.isNull, or3_true_left]
  | false => simp [eval_predicate_of_null hc hNull]

end Condition

end RecordFilter
