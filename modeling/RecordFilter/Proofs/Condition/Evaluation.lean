import RecordFilter.Proofs.Condition.Ordered
import RecordFilter.Proofs.Condition.Probe

/-!
# Evaluating conditions of a data type

The probe of a value compares with every operand of a condition of its data type, unless the value
is NaN. A value that does not compare is answered as null is, and so is one that does not fit the
data type at all. All answers follow rules in which the condition and the value go together.
-/

namespace RecordFilter

/-- The one kind of value that fits a data type and does not compare in it. -/
def Value.isNaN : Value → Bool
  | number n => n.isNaN
  | _ => false

theorem Probe.compare?_eq_none_iff {v : Value} {t : DataType} {p : Probe} {o : Operand}
    (hProbe : v.HasProbe t p) (hFits : o.fits t) : p.compare? o = none ↔ v.isNaN = true := by
  cases hProbe with
  | number n =>
    cases o with
    | number b =>
      have hFinite : b.isFinite := by simpa [Operand.fits] using hFits
      have hSome := Number.isSome_compare? n (Number.isNaN_of_isFinite hFinite)
      rw [compare?, ← Option.isNone_iff_eq_none, ← Option.not_isSome, hSome, Bool.not_not]
      rfl
    | bool | micros => cases hFits
  | text s => cases o <;> cases hFits
  | bool a =>
    cases o with
    | bool b => exact iff_of_false (Option.some_ne_none _) Bool.false_ne_true
    | number | micros => cases hFits
  | date | clock | timeOfDay =>
    cases o with
    | micros m => exact iff_of_false (Option.some_ne_none _) Bool.false_ne_true
    | number | bool => cases hFits

namespace Condition

variable {c : Condition} {t : DataType} {v : Value} {p : Probe}

theorem matchesProbe_of_compare?_eq_none (hc : c.operands ≠ [])
    (h : ∀ o ∈ c.operands, p.compare? o = none) : c.matchesProbe p = c.matchesNull := by
  cases c with
  | text test needle negated => exact absurd rfl hc
  | empty negated blankText => exact absurd rfl hc
  | compare op operand =>
    have hOperand := h operand List.mem_cons_self
    simp only [matchesProbe, hOperand, matchesNull]
  | within lower upper upperInclusive negated =>
    have hLower := h lower List.mem_cons_self
    have hUpper := h upper (List.mem_cons_of_mem _ List.mem_cons_self)
    simp only [matchesProbe, hLower, hUpper, matchesNull, Bool.false_and, Bool.false_bne]

namespace WellTyped

theorem compare?_eq_none_iff (h : c.WellTyped t) (hProbe : v.HasProbe t p) {o : Operand}
    (ho : o ∈ c.operands) : p.compare? o = none ↔ v.isNaN = true :=
  Probe.compare?_eq_none_iff hProbe (fits_of_mem_operands h.fits ho)

theorem exists_text {test : TextTest} {needle : String} {negated : Bool}
    (h : (Condition.text test needle negated).WellTyped t) (hProbe : v.HasProbe t p) :
    ∃ s, v = .text s ∧ p = .text s := by
  cases h
  cases hProbe
  exact ⟨_, rfl, rfl⟩

theorem operands_ne_nil (h : c.WellTyped t) (hTest : c.isEmptiness = false) (ht : t ≠ .text) :
    c.operands ≠ [] := by
  cases h with
  | empty => cases hTest
  | text => exact absurd rfl ht
  | number | numbers | truth | micros | span => exact List.cons_ne_nil _ _

theorem matchesProbe_of_isNaN (h : c.WellTyped t) (hTest : c.isEmptiness = false)
    (hProbe : v.HasProbe t p) (hNaN : v.isNaN = true) : c.matchesProbe p = c.matchesNull := by
  -- The value is a number, so the condition has operands, and it compares with none of them.
  have ht : t ≠ .text := by
    rintro rfl
    cases hProbe
    cases hNaN
  exact matchesProbe_of_compare?_eq_none (h.operands_ne_nil hTest ht) fun o ho =>
    (h.compare?_eq_none_iff hProbe ho).mpr hNaN

end WellTyped

theorem matchesValue_eq_matchesNull {c : CompiledCondition}
    (h : c.condition.WellTyped c.dataType) (hTest : c.condition.isEmptiness = false)
    (hv : ¬ v.Fits c.dataType ∨ v.isNaN = true) : c.matchesValue v = c.matchesNull := by
  rw [matchesValue_of_not_isEmptiness hTest]
  cases hRead : v.probe? c.dataType with
  | none => rfl
  | some p =>
    have hProbe := Value.probe?_eq_some_iff.mp hRead
    rcases hv with hNot | hNaN
    · exact absurd ⟨p, hProbe⟩ hNot
    · exact h.matchesProbe_of_isNaN hTest hProbe hNaN

/-- The answers of a condition to a value, one rule for each way in which the two go together. -/
inductive Answers : DataType → Condition → Value → Bool → Prop where
  | empty (t : DataType) (negated blankText : Bool) (v : Value) :
      Answers t (.empty negated blankText) v (isEmptyValue blankText v != negated)
  | apart {t : DataType} {c : Condition} {v : Value} : c.isEmptiness = false →
      ¬ v.Fits t ∨ v.isNaN = true → Answers t c v c.matchesNull
  | text (test : TextTest) (needle : String) (negated : Bool) (s : String) :
      Answers .text (.text test needle negated) (.text s)
        (test.holds needle.toList (Text.fold s).toList != negated)
  | ordered {t : DataType} {c : Condition} {v : Value} {p : Probe} {order : Operand → Ordering} :
      c.operands ≠ [] → v.HasProbe t p → (∀ o ∈ c.operands, p.compare? o = some (order o)) →
      Answers t c v (c.answer order)

theorem isEmptiness_of_operands_ne_nil (hc : c.operands ≠ []) : c.isEmptiness = false := by
  cases c with
  | empty negated blankText => exact absurd rfl hc
  | text | compare | within => rfl

theorem Answers.matchesValue_eq {c : CompiledCondition} {b : Bool}
    (h : c.condition.WellTyped c.dataType) (hAnswer : c.condition.Answers c.dataType v b) :
    c.matchesValue v = b := by
  obtain ⟨t, projection, c⟩ := c
  cases hAnswer with
  | empty | text => rfl
  | apart hTest hv => exact matchesValue_eq_matchesNull h hTest hv
  | ordered hOperands hProbe hOrder =>
    have hTest := isEmptiness_of_operands_ne_nil hOperands
    rw [matchesValue_eq_matchesProbe hTest (Value.probe?_eq_some_iff.mpr hProbe)]
    exact matchesProbe_eq_answer hOperands hOrder

theorem WellTyped.answers_matchesProbe (h : c.WellTyped t) (hTest : c.isEmptiness = false)
    (hProbe : v.HasProbe t p) (hNaN : v.isNaN ≠ true) : c.Answers t v (c.matchesProbe p) := by
  by_cases hOperands : c.operands = []
  · -- Without operands and not about emptiness, the condition is one on text.
    cases h with
    | text test negated =>
      cases hProbe
      exact .text ..
    | empty => cases hTest
    | number | numbers | truth | micros | span => cases hOperands
  · have hOrder : ∀ o ∈ c.operands, p.compare? o = some ((p.compare? o).getD .eq) := by
      intro o ho
      have hSome : p.compare? o ≠ none := mt (h.compare?_eq_none_iff hProbe ho).mp hNaN
      obtain ⟨order, hCompare⟩ := Option.ne_none_iff_exists'.mp hSome
      rw [hCompare]
      rfl
    rw [matchesProbe_eq_answer hOperands hOrder]
    exact .ordered hOperands hProbe hOrder

theorem WellTyped.answers_matchesValue {c : CompiledCondition}
    (h : c.condition.WellTyped c.dataType) (v : Value) :
    c.condition.Answers c.dataType v (c.matchesValue v) := by
  cases hTest : c.condition.isEmptiness with
  | true =>
    obtain ⟨t, projection, c⟩ := c
    cases c with
    | empty negated blankText => exact .empty t negated blankText v
    | text | compare | within => cases hTest
  | false =>
    by_cases hv : ¬ v.Fits c.dataType ∨ v.isNaN = true
    · rw [matchesValue_eq_matchesNull h hTest hv]
      exact .apart hTest hv
    · obtain ⟨hFits, hNaN⟩ := not_or.mp hv
      obtain ⟨p, hProbe⟩ := not_not.mp hFits
      rw [matchesValue_eq_matchesProbe hTest (Value.probe?_eq_some_iff.mpr hProbe)]
      exact h.answers_matchesProbe hTest hProbe hNaN

theorem WellTyped.matchesValue_eq_iff {c : CompiledCondition}
    (h : c.condition.WellTyped c.dataType) (v : Value) (b : Bool) :
    c.matchesValue v = b ↔ c.condition.Answers c.dataType v b := by
  constructor
  · rintro rfl
    exact h.answers_matchesValue v
  · exact Answers.matchesValue_eq h

end Condition

/-- A filter compiles only to a condition of its data type. A value that fits the type has a probe,
which is a text in a text condition and compares with all operands of another one unless the value
is NaN. So the rules for values that go with the condition give all its answers, and what does not
fit or does not compare is answered as null is. -/
theorem FieldFilter.compiled_conditions_never_mismatch {f : FieldFilter} {kind : ColumnKind}
    {c : CompiledCondition} (h : f.compile kind = .ok c) :
    c.dataType = f.dataType ∧ c.condition.WellTyped f.dataType ∧
    (∀ (v : Value) (p : Probe), v.probe? c.dataType = some p →
      (∀ o ∈ c.condition.operands, p.compare? o = none ↔ v.isNaN = true) ∧
      (∀ test needle negated, c.condition = .text test needle negated →
        ∃ s, v = .text s ∧ p = .text s) ∧
      ∀ (w : Value) (q : Probe), w.probe? c.dataType = some q → p.SameForm q) ∧
    c.matchesValue .null = c.matchesNull ∧
    (∀ v : Value, c.condition.isEmptiness = false → ¬ v.Fits c.dataType ∨ v.isNaN = true →
      c.matchesValue v = c.matchesNull) ∧
    ∀ v b, c.matchesValue v = b ↔ c.condition.Answers c.dataType v b := by
  have hType := (of_compile h).2.1
  have hWell := wellTyped_compile h
  refine ⟨hType, hType ▸ hWell, fun v p hRead => ?_, c.matchesValue_null,
    fun _ hTest hv => Condition.matchesValue_eq_matchesNull hWell hTest hv,
    hWell.matchesValue_eq_iff⟩
  have hProbe := Value.probe?_eq_some_iff.mp hRead
  refine ⟨fun o ho => hWell.compare?_eq_none_iff hProbe ho, fun test needle negated hText => ?_,
    fun w q hOther => ?_⟩
  · rw [hText] at hWell
    exact hWell.exists_text hProbe
  · exact Probe.sameForm_of_hasProbe hProbe (Value.probe?_eq_some_iff.mp hOther)

/-- A range in a column of integers, from a text to an unsigned integer, asked of a text and of
NaN. -/
theorem FieldFilter.mixed_range_never_mismatches :
    let f : FieldFilter :=
      { field := "size", mode := .range, dataType := .number
        value := some (.range (.text " +007") (.number (.nat 18446744073709551615))) }
    ∃ c, f.compile .integer = .ok c ∧ c.condition.WellTyped .number ∧
      c.matchesValue (.text "8") = c.matchesNull ∧
      c.matchesValue (.number (.real ⟨0x7ff8000000000000⟩)) = c.matchesNull := by
  intro f
  let c : CompiledCondition :=
    ⟨.number, .identity,
      .within (.number (.int 7)) (.number (.nat 18446744073709551615)) true false⟩
  have hCompile : f.compile .integer = .ok c := by decide +kernel
  obtain ⟨-, hWell, -, -, hNull, -⟩ := compiled_conditions_never_mismatch hCompile
  have hText : ¬ (Value.text "8").Fits .number := by
    rintro ⟨p, ⟨⟩⟩
  exact ⟨c, hCompile, hWell, hNull _ rfl (.inl hText), hNull _ rfl (.inr (by decide +kernel))⟩

end RecordFilter
