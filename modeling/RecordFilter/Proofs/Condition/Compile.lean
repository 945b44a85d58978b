import RecordFilter.Condition.Compile

/-!
# What filters compile to

A filter compiles when each of its parts does, and the condition is put together from what they
compile to.
-/

namespace RecordFilter

section
variable {ε α β : Type}

theorem bind_eq_ok {x : Except ε α} {f : α → Except ε β} {b : β} :
    (x >>= f) = .ok b ↔ ∃ a, x = .ok a ∧ f a = .ok b := by
  cases x with
  | ok a => exact ⟨fun h => ⟨a, rfl, h⟩, fun ⟨_, ha, h⟩ => Except.ok.inj ha ▸ h⟩
  | error e => exact ⟨nofun, fun ⟨_, ha, _⟩ => nomatch ha⟩

theorem pure_eq_ok {a b : α} : (pure a : Except ε α) = .ok b ↔ a = b :=
  ⟨Except.ok.inj, congrArg _⟩

end

theorem ColumnKind.projection?_eq_some {kind : ColumnKind} {t : DataType} {p : Projection}
    (h : kind.projection? t = some p) :
    t = kind.dataType ∧ p = .identity ∨ t = .time ∧ kind = .timestamp ∧ p = .timeOfDay := by
  unfold projection? at h
  split at h
  · rename_i hType
    exact .inl ⟨hType, (Option.some.inj h).symm⟩
  · split at h
    · rename_i hTime
      obtain ⟨hType, hKind⟩ := Bool.and_eq_true_iff.mp hTime
      exact .inr ⟨of_decide_eq_true hType, of_decide_eq_true hKind, (Option.some.inj h).symm⟩
    · cases h

/-- Whether values of the data type are compared with the operand. -/
def Operand.fits (t : DataType) : Operand → Bool
  | .number n => t = .number && n.isFinite
  | .bool _ => t = .boolean
  | .micros _ => t = .date || t = .time

/-- Whether the condition is one on values of the data type. -/
def Condition.fits (t : DataType) : Condition → Bool
  | .text .. => t = .text
  | .empty _ blankText => blankText = decide (t = .text)
  | .compare _ operand => operand.fits t
  | .within lower upper _ _ => lower.fits t && upper.fits t

namespace Scalar

variable {v : Scalar} {a b : Number}

theorem readNumber_number_eq_ok_iff :
    (number b).readNumber = .ok a ↔ b.isFinite = true ∧ b = a := by
  change (if b.isFinite then Except.ok b else .error ParseFailure.notFinite) = .ok a ↔ _
  split
  · rename_i hFinite
    rw [Except.ok.injEq, and_iff_right hFinite]
  · rename_i hInfinite
    exact ⟨nofun, fun h => absurd h.1 hInfinite⟩

theorem readNumber_text (s : String) :
    (text s).readNumber = readNumberText s >>= fun a => (number a).readNumber := rfl

theorem isFinite_of_readNumber (h : v.readNumber = .ok a) : a.isFinite := by
  have hNumber {b : Number} (hb : (number b).readNumber = .ok a) : a.isFinite := by
    obtain ⟨hFinite, rfl⟩ := readNumber_number_eq_ok_iff.mp hb
    exact hFinite
  cases v with
  | number b => exact hNumber h
  | text s =>
    rw [readNumber_text] at h
    obtain ⟨b, -, hb⟩ := bind_eq_ok.mp h
    exact hNumber hb
  | bool b => cases h

end Scalar

def Scalar.readSpan (t : DataType) : Scalar → Except ParseFailure Calendar.Span
  | .text s => if t = .time then readTime s else readDate s
  | _ => .error .notText

theorem Scalar.readDate_eq_ok_iff {text : String} {s : Calendar.Span} :
    readDate text = .ok s ↔ Calendar.readDateSpan? text = some s := by
  unfold readDate
  cases Calendar.readDateSpan? text <;> simp

theorem Scalar.readTime_eq_ok_iff {text : String} {s : Calendar.Span} :
    readTime text = .ok s ↔ Calendar.readTimeSpan? text = some s := by
  unfold readTime
  cases Calendar.readTimeSpan? text <;> simp

namespace FieldFilter

variable {f : FieldFilter}

theorem requireScalar_eq_ok_iff {v : Scalar} :
    f.requireScalar = .ok v ↔ f.value = some (.scalar v) := by
  rw [requireScalar]
  rcases f.value with _ | _ | _ <;> simp

theorem requireRange_eq_ok_iff {ends : Scalar × Scalar} :
    f.requireRange = .ok ends ↔ f.value = some (.range ends.1 ends.2) := by
  rw [requireRange]
  rcases f.value with _ | _ | _ <;> simp [Prod.ext_iff]

theorem reading_eq_ok_iff {α : Type} {v : Scalar} {r : Except ParseFailure α} {a : α} :
    f.reading v r = .ok a ↔ r = .ok a := by
  cases r with
  | ok b => exact ⟨fun h => congrArg _ (Except.ok.inj h), fun h => congrArg _ (Except.ok.inj h)⟩
  | error e => exact ⟨nofun, nofun⟩

theorem supported_eq_ok_iff {α : Type} {r : Option α} {a : α} :
    f.supported r = .ok a ↔ r = some a := by
  cases r <;> simp [supported]

theorem readSpan_eq (f : FieldFilter) (v : Scalar) :
    f.readSpan v = f.reading v (v.readSpan f.dataType) := by
  cases v <;> rfl

theorem emptyRange_eq_ok_iff {α : Type} {empty : Prop} [Decidable empty] {low high : Scalar}
    {a b : α} :
    (if empty then f.emptyRange low high else pure a) = .ok b ↔ ¬ empty ∧ a = b := by
  split
  · rename_i h
    exact ⟨nofun, fun hNot => absurd h hNot.1⟩
  · rename_i h
    rw [pure_eq_ok, and_iff_right h]

theorem compileText_eq_ok_iff {c : Condition} :
    f.compileText = .ok c ↔ ∃ v test negated, f.value = some (.scalar v) ∧
      f.mode.textTest? = some (test, negated) ∧ .text test (Text.fold v.asText) negated = c := by
  simp only [compileText, bind_eq_ok, pure_eq_ok, requireScalar_eq_ok_iff, supported_eq_ok_iff,
    Prod.exists, exists_and_left]

theorem compileBool_eq_ok_iff {c : Condition} :
    f.compileBool = .ok c ↔ ∃ v b, f.value = some (.scalar v) ∧ v.readBool = .ok b ∧
      .compare (if f.mode = .notEqual then .ne else .eq) (.bool b) = c := by
  simp only [compileBool, bind_eq_ok, pure_eq_ok, requireScalar_eq_ok_iff, reading_eq_ok_iff,
    exists_and_left]

theorem compileNumber_eq_ok_iff (hMode : f.mode ≠ .range) {c : Condition} :
    f.compileNumber = .ok c ↔ ∃ v n op, f.value = some (.scalar v) ∧ v.readNumber = .ok n ∧
      f.mode.comparison? = some op ∧ .compare op (.number n) = c := by
  simp only [compileNumber, if_neg hMode, readNumber, bind_eq_ok, pure_eq_ok,
    requireScalar_eq_ok_iff, reading_eq_ok_iff, supported_eq_ok_iff, exists_and_left]

theorem compileNumber_range_eq_ok_iff (hMode : f.mode = .range) {c : Condition} :
    f.compileNumber = .ok c ↔ ∃ low high lower upper, f.value = some (.range low high) ∧
      low.readNumber = .ok lower ∧ high.readNumber = .ok upper ∧
      lower.compare? upper ≠ some .gt ∧ .within (.number lower) (.number upper) true false = c := by
  simp only [compileNumber, if_pos hMode, readNumber, bind_eq_ok, requireRange_eq_ok_iff,
    reading_eq_ok_iff, emptyRange_eq_ok_iff, Prod.exists, exists_and_left, ne_eq]

theorem compileTemporal_eq_ok_iff (hMode : f.mode ≠ .range) {c : Condition} :
    f.compileTemporal = .ok c ↔ ∃ v s, f.value = some (.scalar v) ∧
      v.readSpan f.dataType = .ok s ∧ f.mode.spanCondition? s = some c := by
  simp only [compileTemporal, if_neg hMode, readSpan_eq, bind_eq_ok, requireScalar_eq_ok_iff,
    reading_eq_ok_iff, supported_eq_ok_iff, exists_and_left]

theorem compileTemporal_range_eq_ok_iff (hMode : f.mode = .range) {c : Condition} :
    f.compileTemporal = .ok c ↔ ∃ low high first last, f.value = some (.range low high) ∧
      low.readSpan f.dataType = .ok first ∧ high.readSpan f.dataType = .ok last ∧
      ¬ last.stop ≤ first.start ∧ .withinSpan first.start last.stop false = c := by
  simp only [compileTemporal, if_pos hMode, readSpan_eq, bind_eq_ok, requireRange_eq_ok_iff,
    reading_eq_ok_iff, emptyRange_eq_ok_iff, Prod.exists, exists_and_left]

theorem eq_of_compileNumber {c : Condition} (h : f.compileNumber = .ok c) :
    (∃ op n, c = .compare op (.number n)) ∨
      ∃ lower upper, c = .within (.number lower) (.number upper) true false := by
  by_cases hMode : f.mode = .range
  · obtain ⟨-, -, lower, upper, -, -, -, -, rfl⟩ := (compileNumber_range_eq_ok_iff hMode).mp h
    exact .inr ⟨lower, upper, rfl⟩
  · obtain ⟨-, n, op, -, -, -, rfl⟩ := (compileNumber_eq_ok_iff hMode).mp h
    exact .inl ⟨op, n, rfl⟩

/-- Everything that compiling a filter settles, but for its checks. -/
theorem of_compile {kind : ColumnKind} {c : CompiledCondition} (h : f.compile kind = .ok c) :
    kind.projection? f.dataType = some c.projection ∧ c.dataType = f.dataType ∧
      if f.mode.isNullary then
        c.condition = .empty (f.mode = .isNotEmpty) (f.dataType = .text)
      else f.compileValue = .ok c.condition := by
  unfold compile at h
  split at h
  · cases h
  · split at h
    · cases h
    · rename_i projection hProjection
      split at h
      · rename_i hNullary
        obtain rfl := pure_eq_ok.mp h
        exact ⟨hProjection, rfl, by rw [if_pos hNullary]⟩
      · rename_i hNullary
        obtain ⟨condition, hCondition, h⟩ := bind_eq_ok.mp h
        obtain rfl := pure_eq_ok.mp h
        exact ⟨hProjection, rfl, by rw [if_neg hNullary]; exact hCondition⟩

/-- A filter compiles exactly when it passes the checks and its operand compiles. -/
theorem compile_eq_ok_iff {kind : ColumnKind} {c : CompiledCondition} :
    f.compile kind = .ok c ↔ f.mode.supports f.dataType = true ∧
      kind.projection? f.dataType = some c.projection ∧ c.dataType = f.dataType ∧
      if f.mode.isNullary then
        c.condition = .empty (f.mode = .isNotEmpty) (f.dataType = .text)
      else f.compileValue = .ok c.condition := by
  constructor
  · intro h
    refine ⟨?_, of_compile h⟩
    unfold compile at h
    split at h
    · cases h
    · rename_i hSupports
      simpa using hSupports
  · obtain ⟨t, projection, condition⟩ := c
    rintro ⟨hSupports, hProjection, rfl, hCondition⟩
    simp only [compile, hSupports, hProjection, Bool.not_true, Bool.false_eq_true, if_false]
    split at hCondition
    · rename_i hNullary
      rw [if_pos hNullary, ← hCondition]
      rfl
    · rename_i hNullary
      rw [if_neg hNullary, hCondition]
      rfl

end FieldFilter

end RecordFilter
