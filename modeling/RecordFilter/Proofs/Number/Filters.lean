import RecordFilter.Proofs.Condition.Rendered
import RecordFilter.Proofs.Condition.WellTyped

/-!
# Number filters in memory and in a database

A number filter compiles to a comparison or to a range, and both backends read the result off the
order of the stored number relative to the operands. The orders differ only on numbers that are
confused, so the answers differ exactly when such an operand decides them.
-/

namespace RecordFilter

open Sql

namespace Number

/-- The order of a stored number to an operand once memory has rounded one of them. -/
def roundedOrder (v : Number) (cell : StoredValue) : Operand → Ordering
  | .number o => if v.Confused o then .eq else cell.orderTo (.number o)
  | o => cell.orderTo o

def scaled : Number → Int
  | int n => scaledInteger n.toInt
  | nat n => scaledInteger n.toNat
  | real x => x.scaled

theorem compare?_of_confused {v o : Number} {cell : StoredValue}
    (hv : DataType.number.cell? (.number v) = some cell) (h : Confused v o) :
    cell.compare? (.ofParameter (.ofNumber o)) = some (compare v.scaled o.scaled) ∧
      v.scaled ≠ o.scaled := by
  rcases DataType.eq_of_cell?_number hv with ⟨hNull, -⟩ | ⟨n, hInt, rfl⟩ | ⟨x, hReal, -, rfl⟩
  · cases hNull
  · cases hInt
    rcases h with ⟨m, hm, y, hy, hRounds⟩ | ⟨m, -, y, hy, -⟩
    · cases o with
      | real z =>
        cases hm
        cases hy
        exact ⟨rfl, hRounds.2⟩
      | _ => cases hy
    · cases hy
  · cases hReal
    rcases h with ⟨m, hm, -⟩ | ⟨m, hm, y, hy, hRounds⟩
    · cases hm
    · cases hy
      cases o with
      | int k =>
        cases hm
        exact ⟨rfl, hRounds.2.symm⟩
      | nat k =>
        simp only [boundInteger?] at hm
        split at hm
        · rename_i hSmall
          cases hm
          rw [Parameter.ofNumber, if_pos hSmall]
          exact ⟨rfl, hRounds.2.symm⟩
        · cases hm
      | real z => cases hm

end Number

namespace Condition

/-- Whether memory and a database answer the condition differently on a stored number: it is
confused with an operand, and its order to that operand matters. -/
def Misjudges (v : Number) : Condition → Prop
  | .compare op (.number o) =>
    v.Confused o ∧ op.holds .eq ≠ op.holds (Ord.compare v.scaled o.scaled)
  | .within (.number lower) (.number upper) true false =>
    (Condition.within (.number lower) (.number upper) true false).matchesProbe (.number v) ∧
      (v.Confused lower ∧ v.scaled < lower.scaled ∨ v.Confused upper ∧ upper.scaled < v.scaled)
  | _ => False

variable {v : Number} {cell : StoredValue} {c : Condition}

theorem isFinite_of_mem_operands (hc : c.fits .number) {o : Operand} (ho : o ∈ c.operands) :
    ∃ n, o = .number n ∧ n.isFinite := by
  have hFits := fits_of_mem_operands hc ho
  cases o with
  | number n => exact ⟨n, rfl, by simpa [Operand.fits] using hFits⟩
  | _ => simp [Operand.fits] at hFits

theorem matchesProbe_eq_answer_rounded (hCell : DataType.number.cell? (.number v) = some cell)
    (hc : c.fits .number) (hOperands : c.operands ≠ []) :
    c.matchesProbe (.number v) = c.answer (v.roundedOrder cell) := by
  apply matchesProbe_eq_answer hOperands
  intro o ho
  obtain ⟨n, rfl, hFinite⟩ := isFinite_of_mem_operands hc ho
  obtain ⟨order, hStored, hMemory⟩ := Number.compare?_of_cell? hCell hFinite
  rw [Probe.compare?, hMemory, Number.roundedOrder, StoredValue.orderTo_eq hStored]

theorem eval_predicate_eq_answer_stored {α : Type} {e : Term α} {ps later : Parameters}
    {row : α → StoredValue} (hCell : DataType.number.cell? (.number v) = some cell)
    (hEval : e.eval row later = cell) (hc : c.fits .number) (hOperands : c.operands ≠ [])
    (hLater : later.Extends (c.predicate e ps).2) :
    (c.predicate e ps).1.eval row later = some (c.answer cell.orderTo) := by
  apply eval_predicate_eq_answer hOperands hLater
  intro o ho
  obtain ⟨n, rfl, hFinite⟩ := isFinite_of_mem_operands hc ho
  obtain ⟨order, hStored, -⟩ := Number.compare?_of_cell? hCell hFinite
  rw [hEval, StoredValue.orderTo_eq hStored]
  exact hStored

theorem orderTo_of_confused {o : Number} (hCell : DataType.number.cell? (.number v) = some cell)
    (h : v.Confused o) : cell.orderTo (.number o) = Ord.compare v.scaled o.scaled :=
  StoredValue.orderTo_eq (Number.compare?_of_confused hCell h).1

theorem answer_compare_iff {op : Comparison} {o : Number}
    (hCell : DataType.number.cell? (.number v) = some cell) :
    ((compare op (.number o)).answer (v.roundedOrder cell) =
      (compare op (.number o)).answer cell.orderTo) ↔
      ¬ (compare op (.number o)).Misjudges v := by
  simp only [answer, Number.roundedOrder, Misjudges]
  by_cases h : v.Confused o
  · rw [if_pos h, ← orderTo_of_confused hCell h]
    simp [h]
  · simp [h]

/-- In memory a number has reached every number it is confused with. -/
theorem holds_rounded_iff {op : Comparison} (hReached : op.holds .eq = true) (v : Number)
    (cell : StoredValue) (o : Number) :
    op.holds (v.roundedOrder cell (.number o)) = true ↔
      v.Confused o ∨ op.holds (cell.orderTo (.number o)) = true := by
  rw [Number.roundedOrder]
  split
  · rename_i h
    exact iff_of_true hReached (.inl h)
  · rename_i h
    simp [h]

theorem holds_ge_stored_iff {o : Number} (hCell : DataType.number.cell? (.number v) = some cell)
    (h : v.Confused o) :
    Comparison.ge.holds (cell.orderTo (.number o)) = true ↔ ¬ v.scaled < o.scaled := by
  rw [orderTo_of_confused hCell h, ← compare_lt_iff_lt, Comparison.holds, bne_iff_ne]

theorem holds_le_stored_iff {o : Number} (hCell : DataType.number.cell? (.number v) = some cell)
    (h : v.Confused o) :
    Comparison.le.holds (cell.orderTo (.number o)) = true ↔ ¬ o.scaled < v.scaled := by
  rw [orderTo_of_confused hCell h, ← compare_gt_iff_gt (a := v.scaled), Comparison.holds,
    bne_iff_ne]

theorem answer_range_iff {order : Operand → Ordering} {lower upper : Operand} :
    (within lower upper true false).answer order = true ↔
      Comparison.ge.holds (order lower) = true ∧ Comparison.le.holds (order upper) = true := by
  rw [answer, Bool.bne_false, Bool.and_eq_true]
  rfl

/-- Rounding only ever puts numbers into a range, those beside an end that rounds onto them. -/
theorem answer_within_iff {lower upper : Number}
    (hCell : DataType.number.cell? (.number v) = some cell)
    (hc : (within (.number lower) (.number upper) true false).fits .number) :
    ((within (.number lower) (.number upper) true false).answer (v.roundedOrder cell) =
      (within (.number lower) (.number upper) true false).answer cell.orderTo) ↔
      ¬ (within (.number lower) (.number upper) true false).Misjudges v := by
  rw [Misjudges, matchesProbe_eq_answer_rounded hCell hc nofun, Bool.eq_iff_iff, answer_range_iff,
    answer_range_iff, holds_rounded_iff rfl, holds_rounded_iff rfl]
  have hLow := holds_ge_stored_iff (o := lower) hCell
  have hHigh := holds_le_stored_iff (o := upper) hCell
  constructor
  · rintro hSame ⟨hRounded, hEnd⟩
    obtain ⟨hAbove, hBelow⟩ := hSame.mp hRounded
    rcases hEnd with ⟨hConfused, hLt⟩ | ⟨hConfused, hGt⟩
    · exact (hLow hConfused).mp hAbove hLt
    · exact (hHigh hConfused).mp hBelow hGt
  · intro hFair
    constructor
    · intro hRounded
      have hOutside := fun hEnd => hFair ⟨hRounded, hEnd⟩
      refine ⟨hRounded.1.elim (fun hConfused => ?_) id, hRounded.2.elim (fun hConfused => ?_) id⟩
      · exact (hLow hConfused).mpr fun hLt => hOutside (.inl ⟨hConfused, hLt⟩)
      · exact (hHigh hConfused).mpr fun hGt => hOutside (.inr ⟨hConfused, hGt⟩)
    · rintro ⟨hAbove, hBelow⟩
      exact ⟨.inr hAbove, .inr hBelow⟩

def IsNumeric (c : Condition) : Prop :=
  (∃ op n, c = .compare op (.number n)) ∨
    ∃ lower upper, c = .within (.number lower) (.number upper) true false

theorem IsNumeric.operands_ne_nil (h : c.IsNumeric) : c.operands ≠ [] := by
  rcases h with ⟨op, n, rfl⟩ | ⟨lower, upper, rfl⟩ <;> exact nofun

theorem IsNumeric.isEmptiness (h : c.IsNumeric) : c.isEmptiness = false := by
  rcases h with ⟨op, n, rfl⟩ | ⟨lower, upper, rfl⟩ <;> rfl

theorem IsNumeric.answer_iff (h : c.IsNumeric) (hc : c.fits .number)
    (hCell : DataType.number.cell? (.number v) = some cell) :
    c.answer (v.roundedOrder cell) = c.answer cell.orderTo ↔ ¬ c.Misjudges v := by
  rcases h with ⟨op, n, rfl⟩ | ⟨lower, upper, rfl⟩
  · exact answer_compare_iff hCell
  · exact answer_within_iff hCell hc

theorem IsNumeric.eval_predicateOrNull (h : c.IsNumeric) (hc : c.fits .number)
    (hCell : DataType.number.cell? (.number v) = some cell) {α : Type} {e : Term α}
    {ps later : Parameters} {row : α → StoredValue} (hEval : e.eval row later = cell)
    (hLater : later.Extends (c.predicateOrNull e ps).2) :
    (c.predicateOrNull e ps).1.eval row later = some (c.answer cell.orderTo) := by
  have hNull : cell.isNull = false := Probe.isNull_of_cell? (p := .number v) hCell
  rw [eval_predicateOrNull_of_not_null (hEval ▸ hNull)]
  exact eval_predicate_eq_answer_stored hCell hEval hc h.operands_ne_nil hLater

end Condition

theorem FieldFilter.isNumeric_of_compile {f : FieldFilter} {kind : ColumnKind}
    {c : CompiledCondition} (hCompile : f.compile kind = .ok c) (hType : f.dataType = .number)
    (hMode : f.mode.isNullary = false) :
    kind.dataType = .number ∧ c.dataType = .number ∧ c.projection = .identity ∧
      c.condition.IsNumeric := by
  obtain ⟨hProjection, hDataType, hCondition⟩ := of_compile hCompile
  rw [hType] at hProjection hDataType
  rw [if_neg (by simp [hMode]), compileValue, hType] at hCondition
  rcases ColumnKind.projection?_eq_some hProjection with ⟨hKind, hIdentity⟩ | ⟨hTime, -⟩
  · exact ⟨hKind.symm, hDataType, hIdentity, eq_of_compileNumber hCondition⟩
  · cases hTime

/-- Both backends give a number filter the same answer on a stored number exactly when the
condition does not misjudge it. -/
theorem FieldFilter.matchesValue_iff_eval_iff_not_misjudges {f : FieldFilter} {kind : ColumnKind}
    {c : CompiledCondition} (hCompile : f.compile kind = .ok c) (hType : f.dataType = .number)
    (hMode : f.mode.isNullary = false) {v : Number} {cell : StoredValue}
    (hCell : kind.cell? (.number v) = some cell) {α : Type} {row : α → StoredValue} {column : α}
    (hRow : row column = cell) (ps : Parameters) {later : Parameters}
    (hLater : later.Extends
      (c.condition.predicateOrNull (c.projection.term column) ps).2) :
    (c.matchesValue (.number v) = true ↔
      (c.condition.predicateOrNull (c.projection.term column) ps).1.eval row later = some true) ↔
      ¬ c.condition.Misjudges v := by
  obtain ⟨hKind, hDataType, hIdentity, hNumeric⟩ := isNumeric_of_compile hCompile hType hMode
  have hFits : c.condition.fits .number := hDataType ▸ fits_compile hCompile
  have hNumber : DataType.number.cell? (.number v) = some cell :=
    hKind ▸ ColumnKind.cell?_dataType hCell
  have hEval : (c.projection.term column).eval row later = cell := by
    rw [hIdentity]
    exact hRow
  have hProbe : (Value.number v).probe? c.dataType = some (.number v) := by
    rw [hDataType]
    rfl
  rw [Condition.matchesValue_eq_matchesProbe hNumeric.isEmptiness hProbe,
    Condition.matchesProbe_eq_answer_rounded hNumber hFits hNumeric.operands_ne_nil,
    hNumeric.eval_predicateOrNull hFits hNumber hEval hLater,
    ← hNumeric.answer_iff hFits hNumber, Option.some_inj]
  exact Bool.eq_iff_iff.symm

/-- `2 ^ 53 + 1` in a column of integers, asked to equal the real `2 ^ 53`. -/
theorem FieldFilter.answers_differ_above_two_pow_53 :
    let n : Number := .int 9007199254740993
    let c : CompiledCondition :=
      ⟨.number, .identity, .compare .eq (.number (.real ⟨0x4340000000000000⟩))⟩
    ¬ (c.matchesValue (.number n) = true ↔
      (c.condition.predicateOrNull (c.projection.term ()) {}).1.eval
        (fun _ => .integer 9007199254740993) ⟨[.real ⟨0x4340000000000000⟩]⟩ = some true) := by
  intro n c hSame
  let f : FieldFilter :=
    { field := "n", mode := .equal, dataType := .number
      value := some (.scalar (.number (.real ⟨0x4340000000000000⟩))) }
  have hCompile : f.compile .integer = .ok c := by decide
  have hCell : ColumnKind.integer.cell? (.number n) = some (.integer 9007199254740993) := by decide
  have hMisjudged : c.condition.Misjudges n := ⟨by decide +kernel, by decide +kernel⟩
  exact (matchesValue_iff_eval_iff_not_misjudges hCompile rfl rfl hCell rfl {} (.refl _)).mp hSame
    hMisjudged

theorem FieldFilter.equal_holds_in_memory_only :
    (FieldFilter.compile
      { field := "n", mode := .equal, dataType := .number
        value := some (.scalar (.number (.real ⟨0x4340000000000000⟩))) } .integer) =
      .ok ⟨.number, .identity, .compare .eq (.number (.real ⟨0x4340000000000000⟩))⟩ ∧
    CompiledCondition.matchesValue
      ⟨.number, .identity, .compare .eq (.number (.real ⟨0x4340000000000000⟩))⟩
      (.number (.int 9007199254740993)) = true ∧
    ((Condition.compare .eq (.number (.real ⟨0x4340000000000000⟩))).predicateOrNull
      (.column ()) {}).1.eval (fun _ => .integer 9007199254740993)
        ⟨[.real ⟨0x4340000000000000⟩]⟩ = some false := by
  decide +kernel

end RecordFilter
