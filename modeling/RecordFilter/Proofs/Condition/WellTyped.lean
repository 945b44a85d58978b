import RecordFilter.Proofs.Calendar.Bounds
import RecordFilter.Proofs.Condition.Compile
import RecordFilter.Proofs.Text.Fold

/-!
# Conditions of a data type

Any operand can stand in any condition, but a filter compiles only to a condition of its data type.
Its operands are of the form in which the type is compared, its bounds are in order, its needle is
folded, and only text has a blank.
-/

namespace RecordFilter

/-- The conditions of each data type. -/
inductive Condition.WellTyped : DataType → Condition → Prop where
  | empty (t : DataType) (negated : Bool) : WellTyped t (.empty negated (t = .text))
  | text {needle : String} (test : TextTest) (negated : Bool) : Text.IsFolded needle →
      WellTyped .text (.text test needle negated)
  | number {n : Number} (op : Comparison) : n.isFinite = true →
      WellTyped .number (.compare op (.number n))
  | numbers {lower upper : Number} : lower.isFinite = true → upper.isFinite = true →
      lower.compare? upper ≠ some .gt →
      WellTyped .number (.within (.number lower) (.number upper) true false)
  | truth {op : Comparison} (b : Bool) : op = .eq ∨ op = .ne →
      WellTyped .boolean (.compare op (.bool b))
  | micros {t : DataType} {m : Int} (op : Comparison) : t = .date ∨ t = .time → IsSigned64 m →
      WellTyped t (.compare op (.micros m))
  | span {t : DataType} {start stop : Int} (negated : Bool) : t = .date ∨ t = .time →
      IsSigned64 start → IsSigned64 stop → start < stop →
      WellTyped t (.within (.micros start) (.micros stop) false negated)

theorem Condition.WellTyped.fits {t : DataType} {c : Condition} (h : c.WellTyped t) :
    c.fits t := by
  cases h with
  | empty => exact decide_eq_true rfl
  | text | truth => rfl
  | number op hFinite => simpa [Condition.fits, Operand.fits] using hFinite
  | numbers hLower hUpper => simp [Condition.fits, Operand.fits, hLower, hUpper]
  | micros _ ht | span _ ht => rcases ht with rfl | rfl <;> rfl

theorem Scalar.proper_of_readSpan {x : Scalar} {t : DataType} {s : Calendar.Span}
    (h : x.readSpan t = .ok s) : s.Proper := by
  cases x with
  | text text =>
    change (if t = .time then readTime text else readDate text) = .ok s at h
    split at h
    · exact Calendar.proper_of_readTimeSpan? (readTime_eq_ok_iff.mp h)
    · exact Calendar.proper_of_readDateSpan? (readDate_eq_ok_iff.mp h)
  | number n => cases h
  | bool b => cases h

namespace FieldFilter

variable {f : FieldFilter} {t : DataType} {c : Condition}

theorem wellTyped_compileText (h : f.compileText = .ok c) : c.WellTyped .text := by
  obtain ⟨v, test, negated, -, -, rfl⟩ := compileText_eq_ok_iff.mp h
  exact .text test negated (Text.isFolded_fold _)

theorem wellTyped_compileNumber (h : f.compileNumber = .ok c) : c.WellTyped .number := by
  by_cases hMode : f.mode = .range
  · obtain ⟨low, high, lower, upper, -, hLower, hUpper, hOrder, rfl⟩ :=
      (compileNumber_range_eq_ok_iff hMode).mp h
    exact .numbers (Scalar.isFinite_of_readNumber hLower) (Scalar.isFinite_of_readNumber hUpper)
      hOrder
  · obtain ⟨v, n, op, -, hn, -, rfl⟩ := (compileNumber_eq_ok_iff hMode).mp h
    exact .number op (Scalar.isFinite_of_readNumber hn)

theorem wellTyped_compileBool (h : f.compileBool = .ok c) : c.WellTyped .boolean := by
  obtain ⟨v, b, -, -, rfl⟩ := compileBool_eq_ok_iff.mp h
  refine .truth b ?_
  split
  · exact .inr rfl
  · exact .inl rfl

theorem wellTyped_spanCondition (ht : t = .date ∨ t = .time) {s : Calendar.Span} (hs : s.Proper)
    {mode : Mode} (h : mode.spanCondition? s = some c) : c.WellTyped t := by
  cases mode <;> cases h
  case equal | notEqual => exact .span _ ht hs.start hs.stop hs.start_lt_stop
  case before | lessThan | greaterOrEqual => exact .micros _ ht hs.start
  case after | greaterThan | lessOrEqual => exact .micros _ ht hs.stop

theorem wellTyped_compileTemporal (ht : t = .date ∨ t = .time) (h : f.compileTemporal = .ok c) :
    c.WellTyped t := by
  by_cases hMode : f.mode = .range
  · obtain ⟨low, high, first, last, -, hFirst, hLast, hOrder, rfl⟩ :=
      (compileTemporal_range_eq_ok_iff hMode).mp h
    exact .span _ ht (Scalar.proper_of_readSpan hFirst).start (Scalar.proper_of_readSpan hLast).stop
      (by omega)
  · obtain ⟨v, s, -, hs, hCondition⟩ := (compileTemporal_eq_ok_iff hMode).mp h
    exact wellTyped_spanCondition ht (Scalar.proper_of_readSpan hs) hCondition

theorem wellTyped_compileValue (h : f.compileValue = .ok c) : c.WellTyped f.dataType := by
  unfold compileValue at h
  split at h <;> rename_i hType <;> rw [hType]
  · exact wellTyped_compileText h
  · exact wellTyped_compileNumber h
  · exact wellTyped_compileBool h
  · exact wellTyped_compileTemporal (.inl rfl) h
  · exact wellTyped_compileTemporal (.inr rfl) h

theorem wellTyped_compile {kind : ColumnKind} {c : CompiledCondition}
    (h : f.compile kind = .ok c) : c.condition.WellTyped c.dataType := by
  obtain ⟨-, hType, hCondition⟩ := of_compile h
  rw [hType]
  split at hCondition
  · rw [hCondition]
    exact .empty ..
  · exact wellTyped_compileValue hCondition

theorem fits_compile {kind : ColumnKind} {c : CompiledCondition} (h : f.compile kind = .ok c) :
    c.condition.fits c.dataType :=
  (wellTyped_compile h).fits

end FieldFilter

end RecordFilter
