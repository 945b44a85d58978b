import RecordFilter.Proofs.Condition.Compile
import RecordFilter.Proofs.Sql.Parameter

/-!
# The shape of conditions

Conditions of one shape differ at most in what they compare with. The field, the mode and the data
type of a filter settle the shape of its condition, however its operand is written and whatever its
value is, and the shape settles the predicate.
-/

namespace RecordFilter

open Sql

/-- The conditions differ at most in their needles and operands. -/
inductive Condition.SameShape : Condition → Condition → Prop
  | text (test : TextTest) (needle needle' : String) (negated : Bool) :
      SameShape (.text test needle negated) (.text test needle' negated)
  | empty (negated blankText : Bool) :
      SameShape (.empty negated blankText) (.empty negated blankText)
  | compare (op : Comparison) (operand operand' : Operand) :
      SameShape (.compare op operand) (.compare op operand')
  | within (lower lower' upper upper' : Operand) (upperInclusive negated : Bool) :
      SameShape (.within lower upper upperInclusive negated)
        (.within lower' upper' upperInclusive negated)

/-- The filters differ at most in their values. -/
structure FieldFilter.SameButValue (f f' : FieldFilter) : Prop where
  field_eq : f.field = f'.field
  mode_eq : f.mode = f'.mode
  dataType_eq : f.dataType = f'.dataType

theorem Mode.sameShape_spanCondition {mode : Mode} {s s' : Calendar.Span} {c c' : Condition}
    (h : mode.spanCondition? s = some c) (h' : mode.spanCondition? s' = some c') :
    c.SameShape c' := by
  cases mode <;> cases h <;> cases h'
  case equal | notEqual => exact .within ..
  all_goals exact .compare ..

namespace FieldFilter

variable {f f' : FieldFilter} {c c' : Condition}

theorem sameShape_compileText (hMode : f.mode = f'.mode) (h : f.compileText = .ok c)
    (h' : f'.compileText = .ok c') : c.SameShape c' := by
  obtain ⟨v, test, negated, -, hTest, rfl⟩ := compileText_eq_ok_iff.mp h
  obtain ⟨v', test', negated', -, hTest', rfl⟩ := compileText_eq_ok_iff.mp h'
  rw [hMode, hTest'] at hTest
  cases hTest
  exact .text ..

theorem sameShape_compileNumber (hMode : f.mode = f'.mode) (h : f.compileNumber = .ok c)
    (h' : f'.compileNumber = .ok c') : c.SameShape c' := by
  by_cases hRange : f.mode = .range
  · obtain ⟨-, -, lower, upper, -, -, -, -, rfl⟩ := (compileNumber_range_eq_ok_iff hRange).mp h
    obtain ⟨-, -, lower', upper', -, -, -, -, rfl⟩ :=
      (compileNumber_range_eq_ok_iff (hMode ▸ hRange)).mp h'
    exact .within ..
  · obtain ⟨v, n, op, -, -, hOp, rfl⟩ := (compileNumber_eq_ok_iff hRange).mp h
    obtain ⟨v', n', op', -, -, hOp', rfl⟩ := (compileNumber_eq_ok_iff (hMode ▸ hRange)).mp h'
    rw [hMode, hOp'] at hOp
    cases hOp
    exact .compare ..

theorem sameShape_compileBool (hMode : f.mode = f'.mode) (h : f.compileBool = .ok c)
    (h' : f'.compileBool = .ok c') : c.SameShape c' := by
  obtain ⟨v, b, -, -, rfl⟩ := compileBool_eq_ok_iff.mp h
  obtain ⟨v', b', -, -, rfl⟩ := compileBool_eq_ok_iff.mp h'
  rw [hMode]
  exact .compare ..

theorem sameShape_compileTemporal (hMode : f.mode = f'.mode) (h : f.compileTemporal = .ok c)
    (h' : f'.compileTemporal = .ok c') : c.SameShape c' := by
  by_cases hRange : f.mode = .range
  · obtain ⟨-, -, first, last, -, -, -, -, rfl⟩ := (compileTemporal_range_eq_ok_iff hRange).mp h
    obtain ⟨-, -, first', last', -, -, -, -, rfl⟩ :=
      (compileTemporal_range_eq_ok_iff (hMode ▸ hRange)).mp h'
    exact .within ..
  · obtain ⟨v, s, -, -, hSpan⟩ := (compileTemporal_eq_ok_iff hRange).mp h
    obtain ⟨v', s', -, -, hSpan'⟩ := (compileTemporal_eq_ok_iff (hMode ▸ hRange)).mp h'
    rw [hMode] at hSpan
    exact Mode.sameShape_spanCondition hSpan hSpan'

theorem SameButValue.sameShape_compileValue (hSame : f.SameButValue f') (h : f.compileValue = .ok c)
    (h' : f'.compileValue = .ok c') : c.SameShape c' := by
  rw [compileValue] at h h'
  rw [← hSame.dataType_eq] at h'
  cases hType : f.dataType <;> rw [hType] at h h'
  · exact sameShape_compileText hSame.mode_eq h h'
  · exact sameShape_compileNumber hSame.mode_eq h h'
  · exact sameShape_compileBool hSame.mode_eq h h'
  · exact sameShape_compileTemporal hSame.mode_eq h h'
  · exact sameShape_compileTemporal hSame.mode_eq h h'

theorem SameButValue.sameShape_compile (hSame : f.SameButValue f') {kind : ColumnKind}
    {c c' : CompiledCondition} (h : f.compile kind = .ok c) (h' : f'.compile kind = .ok c') :
    c.projection = c'.projection ∧ c.condition.SameShape c'.condition := by
  obtain ⟨hProjection, -, hCondition⟩ := of_compile h
  obtain ⟨hProjection', -, hCondition'⟩ := of_compile h'
  rw [← hSame.dataType_eq, hProjection] at hProjection'
  refine ⟨Option.some.inj hProjection', ?_⟩
  rw [← hSame.mode_eq, ← hSame.dataType_eq] at hCondition'
  split at hCondition
  · rename_i hNullary
    rw [if_pos hNullary] at hCondition'
    rw [hCondition, hCondition']
    exact .empty ..
  · rename_i hNullary
    rw [if_neg hNullary] at hCondition'
    exact hSame.sameShape_compileValue hCondition hCondition'

end FieldFilter

namespace Condition.SameShape

variable {α : Type} {c c' : Condition} {ps ps' : Parameters}

theorem predicate (h : c.SameShape c') (e : Term α) (hSize : ps.size = ps'.size) :
    (c.predicate e ps).1 = (c'.predicate e ps').1 ∧
      (c.predicate e ps).2.size = (c'.predicate e ps').2.size := by
  have hPush (p p' : Parameter) : (ps.push p).1.size = (ps'.push p').1.size := by
    rw [Parameters.size_push, Parameters.size_push, hSize]
  cases h with
  | empty negated blankText => cases negated <;> cases blankText <;> exact ⟨rfl, hSize⟩
  | text test needle needle' negated =>
    refine ⟨?_, hPush _ _⟩
    simp only [Condition.predicate, Parameters.bind, Parameters.push_snd, hSize]
  | compare op operand operand' =>
    refine ⟨?_, hPush _ _⟩
    simp only [Condition.predicate, Parameters.bind, Parameters.push_snd, hSize]
  | within lower lower' upper upper' upperInclusive negated =>
    have hLower := hPush (.ofOperand lower) (.ofOperand lower')
    simp only [Condition.predicate, Parameters.bind, Parameters.push_snd, Parameters.size_push,
      hSize, hLower, and_self]

theorem predicateOrNull (h : c.SameShape c') (e : Term α) (hSize : ps.size = ps'.size) :
    (c.predicateOrNull e ps).1 = (c'.predicateOrNull e ps').1 ∧
      (c.predicateOrNull e ps).2.size = (c'.predicateOrNull e ps').2.size := by
  obtain ⟨hPredicate, hNext⟩ := h.predicate e hSize
  have hAround : (!c.isEmptiness && c.matchesNull) = (!c'.isEmptiness && c'.matchesNull) := by
    cases h <;> rfl
  simp only [Condition.predicateOrNull, hPredicate, hAround]
  exact ⟨trivial, hNext⟩

end Condition.SameShape

end RecordFilter
