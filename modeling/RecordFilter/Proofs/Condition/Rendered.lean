import RecordFilter.Proofs.Condition.Null
import RecordFilter.Proofs.Condition.Probe
import RecordFilter.Proofs.Number.Rounded
import RecordFilter.Proofs.Sql.Like
import RecordFilter.Proofs.Sql.TimeOfDay

/-!
# Conditions in memory and as predicates

A condition is asked of a value in memory and, rendered as a predicate, of the cell that stores the
value. The projected column holds the probe of the value, the bound operands compare with it as the
operands do with the probe, and patterns match as the tests they stand for.
-/

namespace RecordFilter

open Sql

/-- What a projected column holds for a probe. -/
def Probe.cell? : Probe → Option StoredValue
  | text s => some (.text s)
  | number n => DataType.number.cell? (.number n)
  | bool b => some (.integer (if b then 1 else 0))
  | micros m => some (.integer m)

theorem Probe.isNull_of_cell? {p : Probe} {cell : StoredValue} (h : p.cell? = some cell) :
    cell.isNull = false := by
  cases p with
  | number n =>
    rcases DataType.eq_of_cell?_number h with ⟨hNull, -⟩ | ⟨n, -, rfl⟩ | ⟨x, -, -, rfl⟩
    · cases hNull
    · rfl
    · rfl
  | _ =>
    cases h
    rfl

/-- What a projected column holds for a value: null for null, else the form of its probe. -/
def HoldsProbe (t : DataType) (v : Value) (cell : StoredValue) : Prop :=
  v = .null ∧ cell = .null ∨ ∃ p, v.probe? t = some p ∧ p.cell? = some cell

variable {α : Type} {row : α → StoredValue} {ps later : Parameters}

theorem DataType.holdsProbe_of_cell? {t : DataType} {v : Value} {cell : StoredValue}
    (h : t.cell? v = some cell) : HoldsProbe t v cell := by
  cases t with
  | text =>
    rcases eq_of_cell?_text h with ⟨rfl, rfl⟩ | ⟨s, rfl, rfl⟩
    · exact .inl ⟨rfl, rfl⟩
    · exact .inr ⟨_, rfl, rfl⟩
  | number =>
    rcases eq_of_cell?_number h with ⟨rfl, rfl⟩ | ⟨n, rfl, rfl⟩ | ⟨x, rfl, -, rfl⟩
    · exact .inl ⟨rfl, rfl⟩
    · exact .inr ⟨_, rfl, h⟩
    · exact .inr ⟨_, rfl, h⟩
  | boolean =>
    rcases eq_of_cell?_boolean h with ⟨rfl, rfl⟩ | ⟨b, rfl, rfl⟩
    · exact .inl ⟨rfl, rfl⟩
    · exact .inr ⟨_, rfl, rfl⟩
  | date =>
    rcases eq_of_cell?_date h with ⟨rfl, rfl⟩ | ⟨m, rfl, rfl⟩
    · exact .inl ⟨rfl, rfl⟩
    · exact .inr ⟨_, rfl, rfl⟩
  | time =>
    rcases eq_of_cell?_time h with ⟨rfl, rfl⟩ | ⟨m, rfl, rfl⟩
    · exact .inl ⟨rfl, rfl⟩
    · exact .inr ⟨_, rfl, rfl⟩

theorem Projection.eval_term {kind : ColumnKind} {t : DataType} {p : Projection} {column : α}
    {v : Value} (hProjection : kind.projection? t = some p)
    (hCell : kind.dataType.cell? v = some (row column)) :
    HoldsProbe t v ((p.term column).eval row later) := by
  rcases ColumnKind.projection?_eq_some hProjection with ⟨rfl, rfl⟩ | ⟨rfl, rfl, rfl⟩
  · exact DataType.holdsProbe_of_cell? hCell
  · rcases DataType.eq_of_cell?_date hCell with ⟨hNull, hColumn⟩ | ⟨t, rfl, hColumn⟩
    · exact .inl ⟨hNull, eval_timeOfDay_null hColumn⟩
    · refine .inr ⟨.micros t.timeOfDay, rfl, ?_⟩
      rw [term, eval_timeOfDay (e := .column column) hColumn]
      rfl

theorem Probe.compare?_of_cell? {p : Probe} {v : Value} {t : DataType} {o : Operand}
    {cell : StoredValue} (hProbe : v.probe? t = some p) (hCell : p.cell? = some cell)
    (hFits : o.fits t) (hExact : ∀ a b, p = .number a → o = .number b → a.MeetExactly b) :
    p.compare? o = some (cell.orderTo o) ∧
      cell.compare? (.ofParameter (.ofOperand o)) = some (cell.orderTo o) := by
  have hOrder {order : Ordering} (h : cell.compare? (.ofParameter (.ofOperand o)) = some order)
      (hp : p.compare? o = some order) : p.compare? o = some (cell.orderTo o) ∧
        cell.compare? (.ofParameter (.ofOperand o)) = some (cell.orderTo o) := by
    rw [StoredValue.orderTo_eq h]
    exact ⟨hp, h⟩
  cases o with
  | number b =>
    simp only [Operand.fits, Bool.and_eq_true, decide_eq_true_eq] at hFits
    obtain ⟨rfl, hFinite⟩ := hFits
    obtain ⟨a, -, rfl⟩ := Value.eq_number_of_probe?_number hProbe
    obtain ⟨order, hStored, hMemory⟩ := Number.compare?_of_cell? hCell hFinite
    rw [if_neg (hExact a b rfl rfl).not_confused] at hMemory
    exact hOrder hStored hMemory
  | bool b =>
    obtain rfl := of_decide_eq_true hFits
    obtain ⟨a, rfl⟩ := Value.eq_bool_of_probe? hProbe
    cases hCell
    refine @hOrder (Ord.compare a b) ?_ rfl
    cases a <;> cases b <;> rfl
  | micros m =>
    have ht : t = .date ∨ t = .time := by simpa [Operand.fits] using hFits
    obtain ⟨k, rfl⟩ := Value.eq_micros_of_probe? ht hProbe
    cases hCell
    exact hOrder rfl rfl

namespace Condition

theorem eval_predicate_text {e : Term α} {test : TextTest} {needle s : String} {negated : Bool}
    (hEval : e.eval row later = .text s)
    (hLater : later.Extends ((text test needle negated).predicate e ps).2) :
    ((text test needle negated).predicate e ps).1.eval row later =
      some ((text test needle negated).matchesProbe (.text s)) := by
  have hBound : later.Extends (ps.bind (.text (test.pattern needle)) : Term α × Parameters).2 :=
    hLater
  have hFold : (Term.fold e).eval row later = .text (Text.fold s) := by rw [Term.eval, hEval]
  simp only [predicate, eval_negateIf, matchesProbe]
  by_cases hTest : test = .equals
  · subst hTest
    have hSame : Comparison.eq.holds (Ord.compare (Text.fold s) needle) =
        ((Text.fold s).toList == needle.toList) := by
      rw [Bool.eq_iff_iff, Comparison.holds, beq_iff_eq, beq_iff_eq, String.toList_inj]
      exact Std.compare_eq_iff_eq
    simp only [Predicate.eval, hFold, Parameters.eval_bind hBound]
    exact congrArg (fun b => some (b != negated)) hSame
  · have hLike : like3 (.text (Text.fold s)) (.text (test.pattern needle)) =
        some (test.holds needle.toList (Text.fold s).toList) := by
      rw [like3, matchesLike_pattern hTest]
    cases test with
    | equals => exact absurd rfl hTest
    | _ =>
      simp only [Predicate.eval, hFold, Parameters.eval_bind hBound]
      exact congrArg (Option.map (· != negated)) hLike

theorem eval_predicate_empty {t : DataType} {v : Value} {e : Term α} (negated : Bool)
    (h : HoldsProbe t v (e.eval row later)) :
    ((empty negated (t = .text)).predicate e ps).1.eval row later =
      some (isEmptyValue (t = .text) v != negated) := by
  by_cases hText : t = .text
  · subst hText
    rcases h with ⟨rfl, hNull⟩ | ⟨p, hProbe, hCell⟩
    · cases negated <;> simp [predicate, Predicate.eval, hNull] <;> rfl
    · cases v with
      | text s =>
        cases hProbe
        have hColumn := (Option.some.inj hCell).symm
        have hBlank : Comparison.eq.holds (Ord.compare s "") = s.isEmpty := by
          rw [Bool.eq_iff_iff, Comparison.holds, beq_iff_eq, Std.compare_eq_iff_eq,
            String.isEmpty_iff]
        cases negated
        · simp [predicate, Predicate.eval, hColumn, Term.eval, StoredValue.compare?, hBlank,
            StoredValue.isNull, or3_false_left, isEmptyValue]
        · have hFilled : Comparison.ne.holds (Ord.compare s "") = !s.isEmpty :=
            congrArg (!·) hBlank
          simp [predicate, Predicate.eval, hColumn, Term.eval, StoredValue.compare?, hFilled,
            StoredValue.isNull, and3_true_left, isEmptyValue]
      | _ => cases hProbe
  · rw [decide_eq_false hText]
    rcases h with ⟨rfl, hNull⟩ | ⟨p, hProbe, hCell⟩
    · cases negated <;> simp [predicate, Predicate.eval, hNull] <;> rfl
    · have hFilled : isEmptyValue false v = false := by
        cases v with
        | null => cases t <;> cases hProbe
        | _ => rfl
      cases negated <;> simp [predicate, Predicate.eval, Probe.isNull_of_cell? hCell, hFilled]

theorem eval_predicate_of_probe {c : Condition} {e : Term α} {t : DataType} {v : Value} {p : Probe}
    (hc : c.fits t) (hTest : c.isEmptiness = false) (hProbe : v.probe? t = some p)
    (hCell : p.cell? = some (e.eval row later))
    (hExact : ∀ a b, v = .number a → .number b ∈ c.operands → a.MeetExactly b)
    (hLater : later.Extends (c.predicate e ps).2) :
    (c.predicate e ps).1.eval row later = some (c.matchesProbe p) := by
  by_cases hOperands : c.operands = []
  · cases c with
    | text test needle negated =>
      obtain rfl := of_decide_eq_true hc
      cases v with
      | text s =>
        cases hProbe
        exact eval_predicate_text (Option.some.inj hCell).symm hLater
      | _ => cases hProbe
    | empty negated blankText => cases hTest
    | compare op operand => cases hOperands
    | within lower upper upperInclusive negated => cases hOperands
  · have hOrder (o : Operand) (ho : o ∈ c.operands) :=
      Probe.compare?_of_cell? hProbe hCell (fits_of_mem_operands hc ho) fun a b ha hb =>
        hExact a b (Value.eq_number_of_probe? (ha ▸ hProbe)) (hb ▸ ho)
    rw [matchesProbe_eq_answer hOperands fun o ho => (hOrder o ho).1,
      eval_predicate_eq_answer hOperands hLater fun o ho => (hOrder o ho).2]

end Condition

/-- A condition asked of a stored value, in memory and as a predicate on its column. -/
theorem CompiledCondition.eval_predicateOrNull_iff {c : CompiledCondition} {kind : ColumnKind}
    {column : α} {v : Value} (hFits : c.condition.fits c.dataType)
    (hProjection : kind.projection? c.dataType = some c.projection)
    (hCell : kind.dataType.cell? v = some (row column))
    (hExact : ∀ a b, v = .number a → .number b ∈ c.condition.operands → a.MeetExactly b)
    (hLater : later.Extends (c.condition.predicateOrNull (c.projection.term column) ps).2) :
    (c.condition.predicateOrNull (c.projection.term column) ps).1.eval row later = some true ↔
      c.matchesValue v = true := by
  have hHolds : HoldsProbe c.dataType v ((c.projection.term column).eval row later) :=
    Projection.eval_term hProjection hCell
  obtain ⟨t, projection, condition⟩ := c
  by_cases hEmpty : condition.isEmptiness
  · cases condition with
    | empty negated blankText =>
      obtain rfl : blankText = decide (t = .text) := of_decide_eq_true hFits
      change ((Condition.empty negated _).predicate _ ps).1.eval row later = _ ↔ _
      rw [Condition.eval_predicate_empty negated hHolds, Option.some_inj]
      rfl
    | _ => cases hEmpty
  · have hTest : condition.isEmptiness = false := Bool.eq_false_iff.mpr hEmpty
    rcases hHolds with ⟨rfl, hNull⟩ | ⟨p, hProbe, hProjected⟩
    · rw [Condition.eval_predicateOrNull_of_null hTest hNull, matchesValue_null]
      rfl
    · rw [Condition.eval_predicateOrNull_of_not_null (Probe.isNull_of_cell? hProjected),
        Condition.eval_predicate_of_probe hFits hTest hProbe hProjected hExact hLater,
        Condition.matchesValue_eq_matchesProbe hTest hProbe, Option.some_inj]

end RecordFilter
