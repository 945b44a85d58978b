import RecordFilter.Proofs.Condition.Answer

/-!
# Complements

Equality, containment and emptiness each have a mode that says the opposite. Two filters that differ
in such a mode alone compile together, to conditions that differ in their sign. Every value, null
and values of other types included, satisfies exactly one of the two.
-/

namespace RecordFilter

def Mode.complement? : Mode → Option Mode
  | equal => some .notEqual
  | notEqual => some .equal
  | contains => some .notContains
  | notContains => some .contains
  | isEmpty => some .isNotEmpty
  | isNotEmpty => some .isEmpty
  | _ => none

def Comparison.complement? : Comparison → Option Comparison
  | eq => some .ne
  | ne => some .eq
  | _ => none

def Condition.complement? : Condition → Option Condition
  | text test needle negated => some (.text test needle !negated)
  | empty negated blankText => some (.empty (!negated) blankText)
  | compare op operand => op.complement?.map fun op => .compare op operand
  | within lower upper upperInclusive negated =>
    some (.within lower upper upperInclusive !negated)

/-- The same filter with the opposite mode. -/
def FieldFilter.complement? (f : FieldFilter) : Option FieldFilter :=
  f.mode.complement?.map fun mode => { f with mode }

namespace Mode

variable {m n : Mode} (h : m.complement? = some n)
include h

theorem complement?_symm : n.complement? = some m := by
  cases m <;> cases h <;> rfl

theorem supports_complement (t : DataType) : n.supports t = m.supports t := by
  cases m <;> cases h <;> rfl

theorem isNullary_complement : n.isNullary = m.isNullary := by
  cases m <;> cases h <;> rfl

theorem decide_isNotEmpty_complement (hNullary : m.isNullary = true) :
    decide (n = .isNotEmpty) = !decide (m = .isNotEmpty) := by
  cases m <;> cases h <;> cases hNullary <;> rfl

theorem ne_range_of_complement : m ≠ .range := by
  rintro rfl
  cases h

theorem textTest?_complement :
    n.textTest? = m.textTest?.map fun (test, negated) => (test, !negated) := by
  cases m <;> cases h <;> rfl

theorem exists_comparison?_complement {op : Comparison} (hOp : m.comparison? = some op) :
    ∃ op', n.comparison? = some op' ∧ op.complement? = some op' := by
  cases m <;> cases h <;> cases hOp <;> exact ⟨_, rfl, rfl⟩

theorem exists_spanCondition?_complement {s : Calendar.Span} {c : Condition}
    (hc : m.spanCondition? s = some c) :
    ∃ c', n.spanCondition? s = some c' ∧ c.complement? = some c' := by
  cases m <;> cases h <;> cases hc <;> exact ⟨_, rfl, rfl⟩

end Mode

theorem Comparison.holds_complement {op op' : Comparison} (h : op.complement? = some op')
    (o : Ordering) : op'.holds o = !op.holds o := by
  cases op <;> cases h <;> cases o <;> rfl

namespace Condition

variable {c c' : Condition} (h : c.complement? = some c')
include h

theorem matchesNull_complement : c'.matchesNull = !c.matchesNull := by
  cases c with
  | compare op operand =>
    obtain ⟨op', hOp, rfl⟩ := Option.map_eq_some_iff.mp h
    cases op <;> cases hOp <;> rfl
  | _ => cases h; rfl

theorem matchesProbe_complement (p : Probe) : c'.matchesProbe p = !c.matchesProbe p := by
  cases c with
  | text test needle negated =>
    cases h
    cases p <;> simp [matchesProbe]
  | empty negated blankText =>
    cases h
    rfl
  | compare op operand =>
    obtain ⟨op', hOp, rfl⟩ := Option.map_eq_some_iff.mp h
    simp only [matchesProbe]
    cases p.compare? operand with
    | some o => exact Comparison.holds_complement hOp o
    -- A NaN does not compare: it is unequal to every operand.
    | none => cases op <;> cases hOp <;> rfl
  | within lower upper upperInclusive negated =>
    cases h
    simp [matchesProbe]

theorem isEmptiness_complement : c'.isEmptiness = c.isEmptiness := by
  cases c with
  | compare op operand =>
    obtain ⟨op', -, rfl⟩ := Option.map_eq_some_iff.mp h
    rfl
  | _ => cases h; rfl

theorem matchesValue_complement (t : DataType) (p : Projection) (v : Value) :
    CompiledCondition.matchesValue ⟨t, p, c'⟩ v = !CompiledCondition.matchesValue ⟨t, p, c⟩ v := by
  cases hEmpty : c.isEmptiness with
  | true =>
    cases c with
    | empty negated blankText =>
      cases h
      simp [CompiledCondition.matchesValue]
    | _ => cases hEmpty
  | false =>
    have hComplement : c'.isEmptiness = false := (isEmptiness_complement h).trans hEmpty
    rw [matchesValue_of_not_isEmptiness (c := ⟨t, p, c⟩) hEmpty,
      matchesValue_of_not_isEmptiness (c := ⟨t, p, c'⟩) hComplement]
    cases v.probe? t with
    | none => exact matchesNull_complement h
    | some probe => exact matchesProbe_complement h probe

end Condition

namespace FieldFilter

variable {f g : FieldFilter}

theorem complement?_symm (h : f.complement? = some g) : g.complement? = some f := by
  obtain ⟨n, hMode, rfl⟩ := Option.map_eq_some_iff.mp h
  exact Option.map_eq_some_iff.mpr ⟨f.mode, Mode.complement?_symm hMode, rfl⟩

section
variable {n : Mode} (h : f.mode.complement? = some n) {c : Condition}
include h

theorem compileText_complement (hc : f.compileText = .ok c) :
    ∃ c', { f with mode := n }.compileText = .ok c' ∧ c.complement? = some c' := by
  obtain ⟨v, test, negated, hValue, hTest, rfl⟩ := compileText_eq_ok_iff.mp hc
  have hOther : n.textTest? = some (test, !negated) := by
    rw [Mode.textTest?_complement h, hTest]
    rfl
  exact ⟨_, compileText_eq_ok_iff.mpr ⟨v, test, !negated, hValue, hOther, rfl⟩, rfl⟩

theorem compileNumber_complement (hc : f.compileNumber = .ok c) :
    ∃ c', { f with mode := n }.compileNumber = .ok c' ∧ c.complement? = some c' := by
  obtain ⟨v, x, op, hValue, hx, hOp, rfl⟩ :=
    (compileNumber_eq_ok_iff (Mode.ne_range_of_complement h)).mp hc
  obtain ⟨op', hOther, hComplement⟩ := Mode.exists_comparison?_complement h hOp
  have hRange : n ≠ .range := Mode.ne_range_of_complement (Mode.complement?_symm h)
  exact ⟨_, (compileNumber_eq_ok_iff hRange).mpr ⟨v, x, op', hValue, hx, hOther, rfl⟩,
    Option.map_eq_some_iff.mpr ⟨op', hComplement, rfl⟩⟩

theorem compileTemporal_complement (hc : f.compileTemporal = .ok c) :
    ∃ c', { f with mode := n }.compileTemporal = .ok c' ∧ c.complement? = some c' := by
  obtain ⟨v, s, hValue, hs, hCondition⟩ :=
    (compileTemporal_eq_ok_iff (Mode.ne_range_of_complement h)).mp hc
  obtain ⟨c', hOther, hComplement⟩ := Mode.exists_spanCondition?_complement h hCondition
  have hRange : n ≠ .range := Mode.ne_range_of_complement (Mode.complement?_symm h)
  exact ⟨c', (compileTemporal_eq_ok_iff hRange).mpr ⟨v, s, hValue, hs, hOther⟩, hComplement⟩

/-- Of the modes with an opposite, truth values support equality and emptiness alone. -/
theorem compileBool_complement (hSupports : f.mode.supports .boolean = true)
    (hNullary : f.mode.isNullary = false) (hc : f.compileBool = .ok c) :
    ∃ c', { f with mode := n }.compileBool = .ok c' ∧ c.complement? = some c' := by
  obtain ⟨v, b, hValue, hb, rfl⟩ := compileBool_eq_ok_iff.mp hc
  refine ⟨_, compileBool_eq_ok_iff.mpr ⟨v, b, hValue, hb, rfl⟩, ?_⟩
  cases hMode : f.mode <;> rw [hMode] at h hSupports hNullary <;> cases h
  case equal | notEqual => rfl
  case contains | notContains => cases hSupports
  case isEmpty | isNotEmpty => cases hNullary

theorem compileValue_complement (hSupports : f.mode.supports f.dataType = true)
    (hNullary : f.mode.isNullary = false) (hc : f.compileValue = .ok c) :
    ∃ c', { f with mode := n }.compileValue = .ok c' ∧ c.complement? = some c' := by
  obtain ⟨field, mode, t, value⟩ := f
  cases t with
  | text => exact compileText_complement h hc
  | number => exact compileNumber_complement h hc
  | boolean => exact compileBool_complement h hSupports hNullary hc
  | date | time => exact compileTemporal_complement h hc

end

/-- Filters of opposite modes compile together, to conditions that split all values. -/
theorem exists_compile_complement (h : f.complement? = some g) {kind : ColumnKind}
    {c : CompiledCondition} (hc : f.compile kind = .ok c) :
    ∃ c', g.compile kind = .ok c' ∧ ∀ v, c'.matchesValue v = !c.matchesValue v := by
  obtain ⟨n, hMode, rfl⟩ := Option.map_eq_some_iff.mp h
  obtain ⟨hSupports, hProjection, hType, hCondition⟩ := compile_eq_ok_iff.mp hc
  have hOtherSupports : n.supports f.dataType = true :=
    (Mode.supports_complement hMode _).trans hSupports
  suffices hSign : ∃ c', c.condition.complement? = some c' ∧
      if n.isNullary then
        c' = .empty (n = .isNotEmpty) (f.dataType = .text)
      else { f with mode := n }.compileValue = .ok c' by
    obtain ⟨c', hComplement, hOther⟩ := hSign
    exact ⟨{ c with condition := c' },
      compile_eq_ok_iff.mpr ⟨hOtherSupports, hProjection, hType, hOther⟩,
      Condition.matchesValue_complement hComplement c.dataType c.projection⟩
  rw [Mode.isNullary_complement hMode]
  split at hCondition
  · rename_i hNullary
    rw [hCondition]
    refine ⟨_, rfl, ?_⟩
    rw [if_pos hNullary, Mode.decide_isNotEmpty_complement hMode hNullary]
  · rename_i hNullary
    obtain ⟨c', hOther, hComplement⟩ :=
      compileValue_complement hMode hSupports (Bool.eq_false_iff.mpr hNullary) hCondition
    refine ⟨c', hComplement, ?_⟩
    rw [if_neg hNullary]
    exact hOther

end FieldFilter

end RecordFilter
