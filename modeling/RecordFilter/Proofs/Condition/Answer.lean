import RecordFilter.Condition.Match
import RecordFilter.Proofs.Condition.Compile
import RecordFilter.Proofs.Sql.Parameter

/-!
# Comparisons and ranges by the order of their operands

The answer of a comparison or a range depends only on how the value stands to each operand. In
memory that is the order of a probe, in a database the order of stored values; where both find the
same order they give the same answer.
-/

namespace RecordFilter

open Sql

def Sql.StoredValue.orderTo (cell : StoredValue) (o : Operand) : Ordering :=
  (cell.compare? (.ofParameter (.ofOperand o))).getD .eq

theorem Sql.StoredValue.orderTo_eq {cell : StoredValue} {o : Operand} {order : Ordering}
    (h : cell.compare? (.ofParameter (.ofOperand o)) = some order) : cell.orderTo o = order := by
  rw [orderTo, h]
  rfl

namespace Condition

def operands : Condition → List Operand
  | compare _ operand => [operand]
  | within lower upper _ _ => [lower, upper]
  | _ => []

theorem fits_of_mem_operands {c : Condition} {t : DataType} {o : Operand} (hc : c.fits t)
    (ho : o ∈ c.operands) : o.fits t := by
  cases c with
  | compare op operand => exact List.mem_singleton.mp ho ▸ hc
  | within lower upper upperInclusive negated =>
    obtain ⟨hLower, hUpper⟩ := Bool.and_eq_true_iff.mp hc
    rcases List.mem_cons.mp ho with rfl | ho
    · exact hLower
    · exact List.mem_singleton.mp ho ▸ hUpper
  | _ => cases ho

/-- The answer of a comparison or a range, given how the value stands to each operand. -/
def answer (order : Operand → Ordering) : Condition → Bool
  | compare op operand => op.holds (order operand)
  | within lower upper upperInclusive negated =>
    let below : Comparison := if upperInclusive then .le else .lt
    (Comparison.ge.holds (order lower) && below.holds (order upper)) != negated
  | _ => false

variable {order : Operand → Ordering}

theorem matchesProbe_eq_answer {c : Condition} {p : Probe} (hc : c.operands ≠ [])
    (h : ∀ o ∈ c.operands, p.compare? o = some (order o)) : c.matchesProbe p = c.answer order := by
  cases c with
  | text test needle negated => exact absurd rfl hc
  | empty negated blankText => exact absurd rfl hc
  | compare op operand =>
    have hOperand := h operand List.mem_cons_self
    simp only [matchesProbe, answer, hOperand]
  | within lower upper upperInclusive negated =>
    have hLower := h lower List.mem_cons_self
    have hUpper := h upper (List.mem_cons_of_mem _ List.mem_cons_self)
    simp only [matchesProbe, answer, hLower, hUpper]
    cases order upper <;> cases upperInclusive <;> rfl

theorem matchesValue_of_not_isEmptiness {c : CompiledCondition}
    (hc : c.condition.isEmptiness = false) (v : Value) :
    c.matchesValue v = match v.probe? c.dataType with
      | none => c.condition.matchesNull
      | some p => c.condition.matchesProbe p := by
  rw [CompiledCondition.matchesValue]
  split
  · rename_i hEmpty
    rw [hEmpty] at hc
    cases hc
  · rfl

theorem matchesValue_eq_matchesProbe {c : CompiledCondition} {v : Value} {p : Probe}
    (hc : c.condition.isEmptiness = false) (hProbe : v.probe? c.dataType = some p) :
    c.matchesValue v = c.condition.matchesProbe p := by
  rw [matchesValue_of_not_isEmptiness hc, hProbe]

variable {α : Type} {e : Term α} {ps later : Parameters} {row : α → StoredValue}

theorem eval_negateIf (negated : Bool) (p : Predicate α) :
    (negateIf negated p).eval row later = (p.eval row later).map (· != negated) := by
  cases negated with
  | false => simp [negateIf]
  | true =>
    simp only [negateIf, if_true, Predicate.eval]
    exact congrArg (Option.map · _) (funext fun b => (Bool.bne_true b).symm)

theorem eval_predicate_eq_answer {c : Condition} (hc : c.operands ≠ [])
    (hLater : later.Extends (c.predicate e ps).2)
    (h : ∀ o ∈ c.operands,
      (e.eval row later).compare? (.ofParameter (.ofOperand o)) = some (order o)) :
    (c.predicate e ps).1.eval row later = some (c.answer order) := by
  cases c with
  | text test needle negated => exact absurd rfl hc
  | empty negated blankText => exact absurd rfl hc
  | compare op operand =>
    have hOperand := h operand List.mem_cons_self
    simp only [predicate, Predicate.eval, Parameters.eval_bind hLater, hOperand, answer,
      Option.map_some]
  | within lower upper upperInclusive negated =>
    have hLower := h lower List.mem_cons_self
    have hUpper := h upper (List.mem_cons_of_mem _ List.mem_cons_self)
    have hHigh : later.Extends ((ps.bind (.ofOperand lower) : Term α × Parameters).2.bind
        (.ofOperand upper) : Term α × Parameters).2 := hLater
    have hLow : later.Extends (ps.bind (.ofOperand lower) : Term α × Parameters).2 :=
      hLater.trans (Parameters.push_extends _ _)
    simp only [predicate, eval_negateIf, Predicate.eval, Parameters.eval_bind hHigh,
      Parameters.eval_bind hLow, hLower, hUpper, Option.map_some, answer]
    cases order lower <;> cases order upper <;> cases upperInclusive <;> rfl

end Condition

end RecordFilter
