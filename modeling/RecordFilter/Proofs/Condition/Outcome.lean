import RecordFilter.Proofs.Condition.Failures
import RecordFilter.Proofs.Condition.Ordered

/-!
# How compiling a filter ends

The checks of a filter come in a fixed order, and the first that fails decides the error: the mode
and the data type, the data type and the column, the shape of the operand, the reading of each part
of it, and the order of the ends of a range. A filter that passes all of them compiles. The modes
that a data type does not have are refused by the first check, so no later step meets one.
-/

namespace RecordFilter

/-- The data type is one that values of the column are compared as. -/
def ColumnKind.Fits (kind : ColumnKind) (t : DataType) : Prop :=
  t = kind.dataType ∨ t = .time ∧ kind = .timestamp

theorem ColumnKind.fits_of_projection? {kind : ColumnKind} {t : DataType} {p : Projection}
    (h : kind.projection? t = some p) : kind.Fits t := by
  rcases projection?_eq_some h with ⟨hType, -⟩ | ⟨hTime, hKind, -⟩
  · exact .inl hType
  · exact .inr ⟨hTime, hKind⟩

theorem ColumnKind.Fits.exists_projection {kind : ColumnKind} {t : DataType} (h : kind.Fits t) :
    ∃ p, kind.projection? t = some p := by
  rcases h with rfl | ⟨rfl, rfl⟩
  · exact ⟨.identity, if_pos rfl⟩
  · exact ⟨.timeOfDay, rfl⟩

def FilterValue.operands : FilterValue → List Scalar
  | scalar v => [v]
  | range low high => [low, high]

namespace Scalar

def failure? {α : Type} : Except ParseFailure α → Option ParseFailure
  | .ok _ => none
  | .error cause => some cause

/-- Why the operand of a data type cannot be read, if so. Every operand is a text. -/
def refusal? : DataType → Scalar → Option ParseFailure
  | .text, _ => none
  | .number, v => failure? v.readNumber
  | .boolean, v => failure? v.readBool
  | .date, v => failure? (v.readSpan .date)
  | .time, v => failure? (v.readSpan .time)

theorem failure?_eq_none_iff {α : Type} {r : Except ParseFailure α} :
    failure? r = none ↔ ∃ a, r = .ok a := by
  cases r <;> simp [failure?]

theorem failure?_eq_some_iff {α : Type} {r : Except ParseFailure α} {cause : ParseFailure} :
    failure? r = some cause ↔ r = .error cause := by
  cases r <;> simp [failure?]

theorem refusal?_temporal {t : DataType} (ht : t = .date ∨ t = .time) (v : Scalar) :
    v.refusal? t = failure? (v.readSpan t) := by
  rcases ht with rfl | rfl <;> rfl

theorem refusal?_of_ne_text {t : DataType} (ht : t = .date ∨ t = .time) {v : Scalar}
    (h : ∀ s, v ≠ .text s) : v.refusal? t = some .notText := by
  rw [refusal?_temporal ht]
  cases v with
  | text s => exact absurd rfl (h s)
  | number n => rfl
  | bool b => rfl

end Scalar

namespace Mode

variable {m : Mode}

theorem exists_textTest? (hText : m.supports .text = true) (hNullary : m.isNullary = false) :
    ∃ test negated, m.textTest? = some (test, negated) := by
  cases m <;> cases hText <;> cases hNullary <;> exact ⟨_, _, rfl⟩

theorem exists_comparison? (hNumber : m.supports .number = true) (hNullary : m.isNullary = false)
    (hRange : m ≠ .range) : ∃ op, m.comparison? = some op := by
  cases m <;> cases hNumber <;> cases hNullary <;> first | exact ⟨_, rfl⟩ | exact absurd rfl hRange

theorem exists_spanCondition? {t : DataType} (ht : t = .date ∨ t = .time)
    (hSupports : m.supports t = true) (hNullary : m.isNullary = false) (hRange : m ≠ .range)
    (s : Calendar.Span) : ∃ c, m.spanCondition? s = some c := by
  rcases ht with rfl | rfl <;> cases m <;> cases hSupports <;> cases hNullary <;>
    first | exact ⟨_, rfl⟩ | exact absurd rfl hRange

end Mode

namespace FieldFilter

/-- What is wrong with the shape of the operand: a range is for the mode that asks for one, and a
single value for the others. -/
def misshape? (f : FieldFilter) : Option ShapeFailure :=
  match f.value with
  | none => some .missing
  | some (.scalar _) => if f.mode = .range then some .scalarForRange else none
  | some (.range _ _) => if f.mode = .range then none else some .rangeForScalar

def operands (f : FieldFilter) : List Scalar := (f.value.map FilterValue.operands).getD []

def refusal? (f : FieldFilter) : Option (Scalar × ParseFailure) :=
  f.operands.findSome? fun v => (v.refusal? f.dataType).map (v, ·)

/-- The range leaves out everything: its ends are out of order as numbers, or no microsecond is at
its low end or later and at its high end or earlier. -/
def RangeIsEmpty (f : FieldFilter) (kind : ColumnKind) : Prop :=
  f.mode = .range ∧ ∃ low high, f.value = some (.range low high) ∧
    ((f.dataType = .number ∧ ∃ lower upper, low.readNumber = .ok lower ∧
        high.readNumber = .ok upper ∧ lower.compare? upper = some .gt) ∨
      (f.dataType = .date ∨ f.dataType = .time) ∧ ∃ least most,
        (scalar f.field f.dataType .greaterOrEqual low).compile kind = .ok least ∧
        (scalar f.field f.dataType .lessOrEqual high).compile kind = .ok most ∧
        ∀ m, ¬ (least.condition.matchesProbe (.micros m) ∧
          most.condition.matchesProbe (.micros m)))

/-- The filter passes the checks that do not look at its operand. -/
def Typed (f : FieldFilter) (kind : ColumnKind) : Prop :=
  f.mode.supports f.dataType = true ∧ kind.Fits f.dataType

/-- The filter is typed, and its operand has the shape that the mode asks for. -/
structure Shaped (f : FieldFilter) (kind : ColumnKind) : Prop where
  typed : f.Typed kind
  not_nullary : f.mode.isNullary = false
  misshape?_eq : f.misshape? = none

/-- The filter is shaped, and every part of its operand can be read. -/
structure Readable (f : FieldFilter) (kind : ColumnKind) : Prop where
  shaped : f.Shaped kind
  refusal?_eq : ∀ v ∈ f.operands, v.refusal? f.dataType = none

variable {f : FieldFilter} {kind : ColumnKind}

theorem compile_of_not_supports (h : f.mode.supports f.dataType = false) :
    f.compile kind = .error (.unsupportedMode f.field f.mode f.dataType) := by
  rw [compile, h]
  rfl

theorem compile_of_not_fits (hSupports : f.mode.supports f.dataType = true)
    (h : ¬ kind.Fits f.dataType) :
    f.compile kind = .error (.typeMismatch f.field f.dataType kind) := by
  have hNone : kind.projection? f.dataType = none := by
    cases hProjection : kind.projection? f.dataType with
    | none => rfl
    | some p => exact absurd (ColumnKind.fits_of_projection? hProjection) h
  rw [compile, hSupports, hNone]
  rfl

theorem Typed.exists_compile (h : f.Typed kind) (hNullary : f.mode.isNullary = true) :
    ∃ c, f.compile kind = .ok c := by
  obtain ⟨projection, hProjection⟩ := h.2.exists_projection
  exact ⟨⟨f.dataType, projection, _⟩,
    compile_eq_ok_iff.mpr ⟨h.1, hProjection, rfl, by rw [if_pos hNullary]⟩⟩

section
variable (hTyped : f.Typed kind) (hNullary : f.mode.isNullary = false)
include hTyped hNullary

theorem Typed.compile_of_error {e : FilterError} (h : f.compileValue = .error e) :
    f.compile kind = .error e := by
  obtain ⟨projection, hProjection⟩ := hTyped.2.exists_projection
  rw [compile, hTyped.1, hProjection, hNullary]
  simp only [Bool.not_true, Bool.false_eq_true, if_false, h]
  rfl

theorem Typed.exists_compile_of_ok {condition : Condition} (h : f.compileValue = .ok condition) :
    ∃ c, f.compile kind = .ok c := by
  obtain ⟨projection, hProjection⟩ := hTyped.2.exists_projection
  refine ⟨⟨f.dataType, projection, condition⟩,
    compile_eq_ok_iff.mpr ⟨hTyped.1, hProjection, rfl, ?_⟩⟩
  rw [hNullary]
  exact h

end

theorem misshape?_eq_none_iff :
    f.misshape? = none ↔ f.mode ≠ .range ∧ (∃ v, f.value = some (.scalar v)) ∨
      f.mode = .range ∧ ∃ low high, f.value = some (.range low high) := by
  rw [misshape?]
  rcases f.value with _ | _ | _ <;> by_cases hMode : f.mode = .range <;> simp [hMode]

theorem requireScalar_of_misshape {cause : ShapeFailure} (hMode : f.mode ≠ .range)
    (h : f.misshape? = some cause) :
    f.requireScalar = .error (.invalidValue f.field f.mode cause) := by
  simp only [misshape?, if_neg hMode] at h
  rw [requireScalar]
  generalize f.value = value at h ⊢
  rcases value with _ | _ | _ <;> cases h <;> rfl

theorem requireRange_of_misshape {cause : ShapeFailure} (hMode : f.mode = .range)
    (h : f.misshape? = some cause) :
    f.requireRange = .error (.invalidValue f.field f.mode cause) := by
  simp only [misshape?, if_pos hMode] at h
  rw [requireRange]
  generalize f.value = value at h ⊢
  rcases value with _ | _ | _ <;> cases h <;> rfl

theorem compileValue_of_misshape (hSupports : f.mode.supports f.dataType = true)
    {cause : ShapeFailure} (h : f.misshape? = some cause) :
    f.compileValue = .error (.invalidValue f.field f.mode cause) := by
  by_cases hMode : f.mode = .range
  · have hRange := requireRange_of_misshape hMode h
    unfold compileValue
    split <;> rename_i hType
    · rw [hType, hMode] at hSupports
      cases hSupports
    · rw [compileNumber, if_pos hMode, hRange]
      rfl
    · rw [hType, hMode] at hSupports
      cases hSupports
    all_goals
      rw [compileTemporal, if_pos hMode, hRange]
      rfl
  · have hScalar := requireScalar_of_misshape hMode h
    unfold compileValue
    split
    · rw [compileText, hScalar]
      rfl
    · rw [compileNumber, if_neg hMode, hScalar]
      rfl
    · rw [compileBool, hScalar]
      rfl
    all_goals
      rw [compileTemporal, if_neg hMode, hScalar]
      rfl

def refused (f : FieldFilter) (v : Scalar) (cause : ParseFailure) : FilterError :=
  .parse f.field f.dataType v.asText cause

/-- A reader of operands that fails where the data type refuses one. -/
structure Reads {α : Type} (f : FieldFilter) (read : Scalar → Except FilterError α) : Prop where
  ok : ∀ {v}, v.refusal? f.dataType = none → ∃ a, read v = .ok a
  error : ∀ {v cause}, v.refusal? f.dataType = some cause → read v = .error (f.refused v cause)

theorem reads_reading {α : Type} {parse : Scalar → Except ParseFailure α}
    (h : ∀ v, v.refusal? f.dataType = Scalar.failure? (parse v)) :
    f.Reads fun v => f.reading v (parse v) where
  ok hNone := by
    obtain ⟨a, ha⟩ := Scalar.failure?_eq_none_iff.mp ((h _).symm.trans hNone)
    exact ⟨a, reading_eq_ok_iff.mpr ha⟩
  error hSome := by
    rw [Scalar.failure?_eq_some_iff.mp ((h _).symm.trans hSome)]
    rfl

theorem reads_readNumber (hType : f.dataType = .number) : f.Reads f.readNumber :=
  reads_reading fun v => by rw [hType]; rfl

theorem reads_readBool (hType : f.dataType = .boolean) :
    f.Reads fun v => f.reading v v.readBool :=
  reads_reading fun v => by rw [hType]; rfl

theorem reads_readSpan (hType : f.dataType = .date ∨ f.dataType = .time) : f.Reads f.readSpan := by
  rw [funext f.readSpan_eq]
  exact reads_reading fun v => Scalar.refusal?_temporal hType v

section
variable {α β : Type} {read : Scalar → Except FilterError α} (hRead : f.Reads read)
  {v w low high : Scalar} {cause : ParseFailure} (h : f.refusal? = some (v, cause))
include hRead h

theorem Reads.bind_scalar (hValue : f.value = some (.scalar w)) (g : α → Except FilterError β) :
    (read w >>= g) = .error (f.refused v cause) := by
  simp only [refusal?, operands, hValue, Option.map_some, Option.getD_some, FilterValue.operands,
    List.findSome?_cons, List.findSome?_nil] at h
  cases hRefusal : w.refusal? f.dataType with
  | none =>
    rw [hRefusal] at h
    cases h
  | some reason =>
    rw [hRefusal] at h
    cases h
    rw [hRead.error hRefusal]
    rfl

theorem Reads.bind_range (hValue : f.value = some (.range low high))
    (g : α → α → Except FilterError β) :
    (read low >>= fun a => read high >>= fun b => g a b) = .error (f.refused v cause) := by
  simp only [refusal?, operands, hValue, Option.map_some, Option.getD_some, FilterValue.operands,
    List.findSome?_cons, List.findSome?_nil] at h
  cases hLow : low.refusal? f.dataType with
  | some reason =>
    rw [hLow] at h
    cases h
    rw [hRead.error hLow]
    rfl
  | none =>
    obtain ⟨a, ha⟩ := hRead.ok hLow
    rw [hLow] at h
    cases hHigh : high.refusal? f.dataType with
    | none =>
      rw [hHigh] at h
      cases h
    | some reason =>
      rw [hHigh] at h
      cases h
      rw [ha]
      change (read _ >>= _) = _
      rw [hRead.error hHigh]
      rfl

end

theorem compileValue_of_refusal {v : Scalar} {cause : ParseFailure}
    (hSupports : f.mode.supports f.dataType = true) (hShape : f.misshape? = none)
    (h : f.refusal? = some (v, cause)) : f.compileValue = .error (f.refused v cause) := by
  rcases misshape?_eq_none_iff.mp hShape with ⟨hMode, w, hValue⟩ | ⟨hMode, low, high, hValue⟩
  · have hScalar : f.requireScalar = .ok w := requireScalar_eq_ok_iff.mpr hValue
    unfold compileValue
    split <;> rename_i hType
    · rw [refusal?, operands, hValue, hType] at h
      cases h
    · rw [compileNumber, if_neg hMode, hScalar]
      exact (reads_readNumber hType).bind_scalar h hValue _
    · rw [compileBool, hScalar]
      exact (reads_readBool hType).bind_scalar h hValue _
    · rw [compileTemporal, if_neg hMode, hScalar]
      exact (reads_readSpan (.inl hType)).bind_scalar h hValue _
    · rw [compileTemporal, if_neg hMode, hScalar]
      exact (reads_readSpan (.inr hType)).bind_scalar h hValue _
  · have hRange : f.requireRange = .ok (low, high) := requireRange_eq_ok_iff.mpr hValue
    unfold compileValue
    split <;> rename_i hType
    · rw [hType, hMode] at hSupports
      cases hSupports
    · rw [compileNumber, if_pos hMode, hRange]
      exact (reads_readNumber hType).bind_range h hValue _
    · rw [hType, hMode] at hSupports
      cases hSupports
    · rw [compileTemporal, if_pos hMode, hRange]
      exact (reads_readSpan (.inl hType)).bind_range h hValue _
    · rw [compileTemporal, if_pos hMode, hRange]
      exact (reads_readSpan (.inr hType)).bind_range h hValue _

theorem matchesProbe_ge_micros {k m : Int} :
    (Condition.compare .ge (.micros k)).matchesProbe (.micros m) ↔ k ≤ m := by
  simp only [Condition.matchesProbe, Probe.compare?, Comparison.holds, bne_iff_ne, ne_eq,
    Int.compare_eq_lt, not_lt]

theorem matchesProbe_lt_micros {k m : Int} :
    (Condition.compare .lt (.micros k)).matchesProbe (.micros m) ↔ m < k := by
  simp only [Condition.matchesProbe, Probe.compare?, Comparison.holds, beq_iff_eq,
    Int.compare_eq_lt]

section
variable {field : String} {t : DataType} {low high : Scalar} {first last : Calendar.Span}
  (ht : t = .date ∨ t = .time) (hFits : kind.Fits t)
include ht hFits

variable (field) in
theorem compile_ends (hFirst : low.readSpan t = .ok first) (hLast : high.readSpan t = .ok last) :
    ∃ projection,
      (scalar field t .greaterOrEqual low).compile kind =
        .ok ⟨t, projection, .compare .ge (.micros first.start)⟩ ∧
      (scalar field t .lessOrEqual high).compile kind =
        .ok ⟨t, projection, .compare .lt (.micros last.stop)⟩ := by
  obtain ⟨projection, hProjection⟩ := hFits.exists_projection
  have hSupports : Mode.greaterOrEqual.supports t = true ∧ Mode.lessOrEqual.supports t = true := by
    rcases ht with rfl | rfl <;> exact ⟨rfl, rfl⟩
  refine ⟨projection, ?_, ?_⟩
  · exact (compile_scalar_eq_ok_iff (.inr ht) rfl).mpr
      ⟨hSupports.1, hProjection, rfl, .span first, .span ht hFirst, rfl⟩
  · exact (compile_scalar_eq_ok_iff (.inr ht) rfl).mpr
      ⟨hSupports.2, hProjection, rfl, .span last, .span ht hLast, rfl⟩

theorem stop_le_start_iff (hFirst : low.readSpan t = .ok first)
    (hLast : high.readSpan t = .ok last) :
    last.stop ≤ first.start ↔ ∃ least most,
      (scalar field t .greaterOrEqual low).compile kind = .ok least ∧
      (scalar field t .lessOrEqual high).compile kind = .ok most ∧
      ∀ m, ¬ (least.condition.matchesProbe (.micros m) ∧
        most.condition.matchesProbe (.micros m)) := by
  obtain ⟨projection, hLeast, hMost⟩ := compile_ends field ht hFits hFirst hLast
  constructor
  · intro hOrder
    refine ⟨_, _, hLeast, hMost, ?_⟩
    rintro m ⟨hStart, hStop⟩
    have hStart := matchesProbe_ge_micros.mp hStart
    have hStop := matchesProbe_lt_micros.mp hStop
    omega
  · rintro ⟨least, most, hLeast', hMost', hNone⟩
    obtain rfl := Except.ok.inj (hLeast.symm.trans hLeast')
    obtain rfl := Except.ok.inj (hMost.symm.trans hMost')
    by_contra hOrder
    -- The start of the low end is itself a microsecond of the range.
    refine hNone first.start ⟨matchesProbe_ge_micros.mpr (Int.le_refl _), ?_⟩
    exact matchesProbe_lt_micros.mpr (Int.lt_of_not_ge hOrder)

end

section
variable {low high : Scalar} (hMode : f.mode = .range) (hValue : f.value = some (.range low high))
include hMode hValue

theorem compileNumber_of_range {lower upper : Number} (hLower : low.readNumber = .ok lower)
    (hUpper : high.readNumber = .ok upper) :
    f.compileNumber = if lower.compare? upper = some .gt then f.emptyRange low high
      else .ok (.within (.number lower) (.number upper) true false) := by
  have hRange : f.requireRange = .ok (low, high) := requireRange_eq_ok_iff.mpr hValue
  rw [compileNumber, if_pos hMode, hRange]
  change (f.readNumber low >>= fun lower => f.readNumber high >>= _) = _
  rw [readNumber, readNumber, reading_eq_ok_iff.mpr hLower, reading_eq_ok_iff.mpr hUpper]
  rfl

theorem compileTemporal_of_range {first last : Calendar.Span}
    (hFirst : low.readSpan f.dataType = .ok first) (hLast : high.readSpan f.dataType = .ok last) :
    f.compileTemporal = if last.stop ≤ first.start then f.emptyRange low high
      else .ok (.withinSpan first.start last.stop false) := by
  have hRange : f.requireRange = .ok (low, high) := requireRange_eq_ok_iff.mpr hValue
  rw [compileTemporal, if_pos hMode, hRange]
  change (f.readSpan low >>= fun first => f.readSpan high >>= _) = _
  rw [readSpan_eq, readSpan_eq, reading_eq_ok_iff.mpr hFirst, reading_eq_ok_iff.mpr hLast]
  rfl

theorem rangeIsEmpty_number_iff (hType : f.dataType = .number) {lower upper : Number}
    (hLower : low.readNumber = .ok lower) (hUpper : high.readNumber = .ok upper) :
    f.RangeIsEmpty kind ↔ lower.compare? upper = some .gt := by
  constructor
  · rintro ⟨-, low', high', hValue', ⟨-, lower', upper', hLower', hUpper', hOrder⟩ | ⟨hTemporal, -⟩⟩
    · cases hValue.symm.trans hValue'
      cases hLower.symm.trans hLower'
      cases hUpper.symm.trans hUpper'
      exact hOrder
    · rw [hType] at hTemporal
      rcases hTemporal with h | h <;> cases h
  · intro hOrder
    exact ⟨hMode, low, high, hValue, .inl ⟨hType, lower, upper, hLower, hUpper, hOrder⟩⟩

theorem rangeIsEmpty_temporal_iff (ht : f.dataType = .date ∨ f.dataType = .time)
    (hFits : kind.Fits f.dataType) {first last : Calendar.Span}
    (hFirst : low.readSpan f.dataType = .ok first) (hLast : high.readSpan f.dataType = .ok last) :
    f.RangeIsEmpty kind ↔ last.stop ≤ first.start := by
  constructor
  · rintro ⟨-, low', high', hValue', ⟨hType, -⟩ | ⟨-, hNone⟩⟩
    · rw [hType] at ht
      rcases ht with h | h <;> cases h
    · cases hValue.symm.trans hValue'
      exact (stop_le_start_iff ht hFits hFirst hLast).mpr hNone
  · intro hOrder
    exact ⟨hMode, low, high, hValue, .inr ⟨ht, (stop_le_start_iff ht hFits hFirst hLast).mp hOrder⟩⟩

end

theorem compileValue_eq_compileTemporal (ht : f.dataType = .date ∨ f.dataType = .time) :
    f.compileValue = f.compileTemporal := by
  rcases ht with hType | hType <;> rw [compileValue, hType]

theorem number_or_temporal_of_range {t : DataType} (h : Mode.range.supports t = true) :
    t = .number ∨ t = .date ∨ t = .time := by
  cases t with
  | text | boolean => cases h
  | number => exact .inl rfl
  | date => exact .inr (.inl rfl)
  | time => exact .inr (.inr rfl)

theorem Readable.compileValue_range (h : f.Readable kind) (hMode : f.mode = .range) :
    ∃ low high, f.value = some (.range low high) ∧
      (f.RangeIsEmpty kind → f.compileValue = f.emptyRange low high) ∧
      (¬ f.RangeIsEmpty kind → ∃ c, f.compileValue = .ok c) := by
  obtain ⟨hOther, -⟩ | ⟨-, low, high, hValue⟩ := misshape?_eq_none_iff.mp h.shaped.misshape?_eq
  · exact absurd hMode hOther
  have hEnds : f.operands = [low, high] := by rw [operands, hValue]; rfl
  have hLow := h.refusal?_eq low (hEnds ▸ List.mem_cons_self)
  have hHigh := h.refusal?_eq high (hEnds ▸ List.mem_cons_of_mem _ List.mem_cons_self)
  refine ⟨low, high, hValue, ?_⟩
  have hSupports : Mode.range.supports f.dataType = true := hMode ▸ h.shaped.typed.1
  rcases number_or_temporal_of_range hSupports with hType | ht
  · rw [hType] at hLow hHigh
    obtain ⟨lower, hLower⟩ := Scalar.failure?_eq_none_iff.mp hLow
    obtain ⟨upper, hUpper⟩ := Scalar.failure?_eq_none_iff.mp hHigh
    have hCompile : f.compileValue = f.compileNumber := by rw [compileValue, hType]
    rw [hCompile, compileNumber_of_range hMode hValue hLower hUpper,
      rangeIsEmpty_number_iff hMode hValue hType hLower hUpper]
    exact ⟨fun hOrder => if_pos hOrder, fun hOrder => ⟨_, if_neg hOrder⟩⟩
  · rw [Scalar.refusal?_temporal ht] at hLow hHigh
    obtain ⟨first, hFirst⟩ := Scalar.failure?_eq_none_iff.mp hLow
    obtain ⟨last, hLast⟩ := Scalar.failure?_eq_none_iff.mp hHigh
    rw [compileValue_eq_compileTemporal ht, compileTemporal_of_range hMode hValue hFirst hLast,
      rangeIsEmpty_temporal_iff hMode hValue ht h.shaped.typed.2 hFirst hLast]
    exact ⟨fun hOrder => if_pos hOrder, fun hOrder => ⟨_, if_neg hOrder⟩⟩

theorem Readable.exists_compileValue_scalar (h : f.Readable kind) (hMode : f.mode ≠ .range) :
    ∃ c, f.compileValue = .ok c := by
  obtain ⟨-, v, hValue⟩ | ⟨hRange, -⟩ := misshape?_eq_none_iff.mp h.shaped.misshape?_eq
  swap
  · exact absurd hRange hMode
  have hOperands : f.operands = [v] := by rw [operands, hValue]; rfl
  have hRead := h.refusal?_eq v (hOperands ▸ List.mem_cons_self)
  have hSupports := h.shaped.typed.1
  have hNullary := h.shaped.not_nullary
  have hTemporal (ht : f.dataType = .date ∨ f.dataType = .time) :
      ∃ c, f.compileTemporal = .ok c := by
    rw [Scalar.refusal?_temporal ht] at hRead
    obtain ⟨s, hs⟩ := Scalar.failure?_eq_none_iff.mp hRead
    obtain ⟨c, hc⟩ := Mode.exists_spanCondition? ht hSupports hNullary hMode s
    exact ⟨c, (compileTemporal_eq_ok_iff hMode).mpr ⟨v, s, hValue, hs, hc⟩⟩
  unfold compileValue
  split <;> rename_i hType
  · rw [hType] at hSupports
    obtain ⟨test, negated, hTest⟩ := Mode.exists_textTest? hSupports hNullary
    exact ⟨_, compileText_eq_ok_iff.mpr ⟨v, test, negated, hValue, hTest, rfl⟩⟩
  · rw [hType] at hSupports hRead
    obtain ⟨n, hn⟩ := Scalar.failure?_eq_none_iff.mp hRead
    obtain ⟨op, hOp⟩ := Mode.exists_comparison? hSupports hNullary hMode
    exact ⟨_, (compileNumber_eq_ok_iff hMode).mpr ⟨v, n, op, hValue, hn, hOp, rfl⟩⟩
  · rw [hType] at hRead
    obtain ⟨b, hb⟩ := Scalar.failure?_eq_none_iff.mp hRead
    exact ⟨_, compileBool_eq_ok_iff.mpr ⟨v, b, hValue, hb, rfl⟩⟩
  · exact hTemporal (.inl hType)
  · exact hTemporal (.inr hType)

theorem refusal?_eq_none_iff :
    f.refusal? = none ↔ ∀ v ∈ f.operands, v.refusal? f.dataType = none := by
  simp [refusal?, List.findSome?_eq_none_iff]

theorem Shaped.compile_of_refusal (h : f.Shaped kind) {v : Scalar} {cause : ParseFailure}
    (hRefusal : f.refusal? = some (v, cause)) : f.compile kind = .error (f.refused v cause) :=
  h.typed.compile_of_error h.not_nullary
    (compileValue_of_refusal h.typed.1 h.misshape?_eq hRefusal)

theorem Readable.compile_of_rangeIsEmpty (h : f.Readable kind) (hEmpty : f.RangeIsEmpty kind) :
    ∃ low high, f.value = some (.range low high) ∧
      f.compile kind = .error (.invalidRange f.field low.asText high.asText) := by
  obtain ⟨low, high, hValue, hError, -⟩ := h.compileValue_range hEmpty.1
  exact ⟨low, high, hValue,
    h.shaped.typed.compile_of_error h.shaped.not_nullary (hError hEmpty)⟩

theorem Readable.exists_compile (h : f.Readable kind) (hEmpty : ¬ f.RangeIsEmpty kind) :
    ∃ c, f.compile kind = .ok c := by
  have hOk : ∃ condition, f.compileValue = .ok condition := by
    by_cases hMode : f.mode = .range
    · obtain ⟨low, high, -, -, hOk⟩ := h.compileValue_range hMode
      exact hOk hEmpty
    · exact h.exists_compileValue_scalar hMode
  obtain ⟨condition, hCondition⟩ := hOk
  exact h.shaped.typed.exists_compile_of_ok h.shaped.not_nullary hCondition

/-- How compiling a filter ends, by the check that settles it. -/
inductive Outcome (f : FieldFilter) (kind : ColumnKind) :
    Except FilterError CompiledCondition → Prop
  | unsupportedMode : f.mode.supports f.dataType = false →
      Outcome f kind (.error (.unsupportedMode f.field f.mode f.dataType))
  | typeMismatch : f.mode.supports f.dataType = true → ¬ kind.Fits f.dataType →
      Outcome f kind (.error (.typeMismatch f.field f.dataType kind))
  | emptiness {c : CompiledCondition} : f.Typed kind → f.mode.isNullary = true →
      Outcome f kind (.ok c)
  | invalidValue {cause : ShapeFailure} : f.Typed kind → f.mode.isNullary = false →
      f.misshape? = some cause → Outcome f kind (.error (.invalidValue f.field f.mode cause))
  | parse {v : Scalar} {cause : ParseFailure} : f.Shaped kind → f.refusal? = some (v, cause) →
      Outcome f kind (.error (.parse f.field f.dataType v.asText cause))
  | invalidRange {low high : Scalar} : f.Readable kind → f.RangeIsEmpty kind →
      f.value = some (.range low high) →
      Outcome f kind (.error (.invalidRange f.field low.asText high.asText))
  | compiled {c : CompiledCondition} : f.Readable kind → ¬ f.RangeIsEmpty kind →
      Outcome f kind (.ok c)

theorem outcome_compile (f : FieldFilter) (kind : ColumnKind) :
    f.Outcome kind (f.compile kind) := by
  cases hSupports : f.mode.supports f.dataType with
  | false =>
    rw [compile_of_not_supports hSupports]
    exact .unsupportedMode hSupports
  | true =>
    by_cases hFits : kind.Fits f.dataType
    swap
    · rw [compile_of_not_fits hSupports hFits]
      exact .typeMismatch hSupports hFits
    have hTyped : f.Typed kind := ⟨hSupports, hFits⟩
    cases hNullary : f.mode.isNullary with
    | true =>
      obtain ⟨c, hc⟩ := hTyped.exists_compile hNullary
      rw [hc]
      exact .emptiness hTyped hNullary
    | false =>
      cases hShape : f.misshape? with
      | some cause =>
        rw [hTyped.compile_of_error hNullary (compileValue_of_misshape hSupports hShape)]
        exact .invalidValue hTyped hNullary hShape
      | none =>
        have hShaped : f.Shaped kind := ⟨hTyped, hNullary, hShape⟩
        cases hRefusal : f.refusal? with
        | some first =>
          rw [hShaped.compile_of_refusal hRefusal]
          exact .parse hShaped hRefusal
        | none =>
          have hReadable : f.Readable kind := ⟨hShaped, refusal?_eq_none_iff.mp hRefusal⟩
          by_cases hEmpty : f.RangeIsEmpty kind
          · obtain ⟨low, high, hValue, hError⟩ := hReadable.compile_of_rangeIsEmpty hEmpty
            rw [hError]
            exact .invalidRange hReadable hEmpty hValue
          · obtain ⟨c, hc⟩ := hReadable.exists_compile hEmpty
            rw [hc]
            exact .compiled hReadable hEmpty

theorem compile_eq_unsupportedMode_iff :
    f.compile kind = .error (.unsupportedMode f.field f.mode f.dataType) ↔
      f.mode.supports f.dataType = false := by
  constructor
  · intro h
    cases h ▸ outcome_compile f kind with
    | unsupportedMode hSupports => exact hSupports
  · exact compile_of_not_supports

theorem compile_eq_typeMismatch_iff :
    f.compile kind = .error (.typeMismatch f.field f.dataType kind) ↔
      f.mode.supports f.dataType = true ∧ ¬ kind.Fits f.dataType := by
  constructor
  · intro h
    cases h ▸ outcome_compile f kind with
    | typeMismatch hSupports hFits => exact ⟨hSupports, hFits⟩
  · rintro ⟨hSupports, hFits⟩
    exact compile_of_not_fits hSupports hFits

theorem compile_eq_invalidValue_iff {cause : ShapeFailure} :
    f.compile kind = .error (.invalidValue f.field f.mode cause) ↔
      f.Typed kind ∧ f.mode.isNullary = false ∧ f.misshape? = some cause := by
  constructor
  · intro h
    cases h ▸ outcome_compile f kind with
    | invalidValue hTyped hNullary hShape => exact ⟨hTyped, hNullary, hShape⟩
  · rintro ⟨hTyped, hNullary, hShape⟩
    exact hTyped.compile_of_error hNullary (compileValue_of_misshape hTyped.1 hShape)

theorem compile_eq_parse_iff {text : String} {cause : ParseFailure} :
    f.compile kind = .error (.parse f.field f.dataType text cause) ↔
      f.Shaped kind ∧ ∃ v, f.refusal? = some (v, cause) ∧ v.asText = text := by
  constructor
  · intro h
    cases h ▸ outcome_compile f kind with
    | @parse v _ hShaped hRefusal => exact ⟨hShaped, v, hRefusal, rfl⟩
  · rintro ⟨hShaped, v, hRefusal, rfl⟩
    exact hShaped.compile_of_refusal hRefusal

theorem exists_compile_eq_parse_iff :
    (∃ text cause, f.compile kind = .error (.parse f.field f.dataType text cause)) ↔
      f.Shaped kind ∧ ∃ v ∈ f.operands, v.refusal? f.dataType ≠ none := by
  have hFirst : (∃ v ∈ f.operands, v.refusal? f.dataType ≠ none) ↔ f.refusal? ≠ none := by
    rw [Ne, refusal?_eq_none_iff]
    push Not
    rfl
  simp only [compile_eq_parse_iff, hFirst]
  constructor
  · rintro ⟨-, cause, hShaped, v, hRefusal, -⟩
    exact ⟨hShaped, hRefusal ▸ Option.some_ne_none _⟩
  · rintro ⟨hShaped, hSome⟩
    obtain ⟨⟨v, cause⟩, hRefusal⟩ := Option.ne_none_iff_exists'.mp hSome
    exact ⟨v.asText, cause, hShaped, v, hRefusal, rfl⟩

theorem compile_eq_invalidRange_iff {first last : String} :
    f.compile kind = .error (.invalidRange f.field first last) ↔
      f.Readable kind ∧ f.RangeIsEmpty kind ∧
        ∃ low high, f.value = some (.range low high) ∧ low.asText = first ∧ high.asText = last := by
  constructor
  · intro h
    cases h ▸ outcome_compile f kind with
    | @invalidRange low high hReadable hEmpty hValue =>
      exact ⟨hReadable, hEmpty, low, high, hValue, rfl, rfl⟩
  · rintro ⟨hReadable, hEmpty, low, high, hValue, rfl, rfl⟩
    obtain ⟨low', high', hValue', h⟩ := hReadable.compile_of_rangeIsEmpty hEmpty
    cases hValue.symm.trans hValue'
    exact h

theorem exists_compile_eq_ok_iff :
    (∃ c, f.compile kind = .ok c) ↔ f.Typed kind ∧ f.mode.isNullary = true ∨
      f.Readable kind ∧ ¬ f.RangeIsEmpty kind := by
  constructor
  · rintro ⟨c, h⟩
    cases h ▸ outcome_compile f kind with
    | emptiness hTyped hNullary => exact .inl ⟨hTyped, hNullary⟩
    | compiled hReadable hEmpty => exact .inr ⟨hReadable, hEmpty⟩
  · rintro (⟨hTyped, hNullary⟩ | ⟨hReadable, hEmpty⟩)
    · exact hTyped.exists_compile hNullary
    · exact hReadable.exists_compile hEmpty

/-- Each error of a filter means that a certain check fails and those before it do not, and a filter
that passes all checks compiles. Emptiness asks for no operand, and any operand is a text. -/
theorem first_failed_check_decides (f : FieldFilter) (kind : ColumnKind) :
    let ends := f.compile kind
    (ends = .error (.unsupportedMode f.field f.mode f.dataType) ↔
        f.mode.supports f.dataType = false) ∧
      (ends = .error (.typeMismatch f.field f.dataType kind) ↔
        f.mode.supports f.dataType = true ∧ ¬ kind.Fits f.dataType) ∧
      (∀ cause, ends = .error (.invalidValue f.field f.mode cause) ↔
        f.Typed kind ∧ f.mode.isNullary = false ∧ f.misshape? = some cause) ∧
      ((∃ text cause, ends = .error (.parse f.field f.dataType text cause)) ↔
        f.Shaped kind ∧ ∃ v ∈ f.operands, v.refusal? f.dataType ≠ none) ∧
      (∀ text cause, ends = .error (.parse f.field f.dataType text cause) ↔
        f.Shaped kind ∧ ∃ v, f.refusal? = some (v, cause) ∧ v.asText = text) ∧
      (∀ first last, ends = .error (.invalidRange f.field first last) ↔
        f.Readable kind ∧ f.RangeIsEmpty kind ∧
          ∃ low high, f.value = some (.range low high) ∧ low.asText = first ∧
            high.asText = last) ∧
      ((∃ c, ends = .ok c) ↔ f.Typed kind ∧ f.mode.isNullary = true ∨
        f.Readable kind ∧ ¬ f.RangeIsEmpty kind) ∧
      (∀ e, ends = .error e → f.Fails e ∧ e.isValidation = true) ∧
      (f.Typed kind → f.mode.isNullary = false →
        f.compileValue ≠ .error (.unsupportedMode f.field f.mode f.dataType)) ∧
      (∀ v : Scalar, v.refusal? .text = none) ∧
      ∀ t, t = .date ∨ t = .time → ∀ v : Scalar, (∀ s, v ≠ .text s) →
        v.refusal? t = some .notText := by
  intro ends
  refine ⟨compile_eq_unsupportedMode_iff, compile_eq_typeMismatch_iff,
    fun cause => compile_eq_invalidValue_iff, exists_compile_eq_parse_iff,
    fun text cause => compile_eq_parse_iff, fun first last => compile_eq_invalidRange_iff,
    exists_compile_eq_ok_iff, ?_, ?_, fun v => rfl, fun t ht v => Scalar.refusal?_of_ne_text ht⟩
  · intro e h
    have hFails : f.Fails e := blames_compile kind e h
    exact ⟨hFails, hFails.isValidation⟩
  · -- The error would be the answer of the whole compilation, whose first check has passed.
    intro hTyped hNullary h
    have hSupports := compile_eq_unsupportedMode_iff.mp (hTyped.compile_of_error hNullary h)
    rw [hTyped.1] at hSupports
    cases hSupports

end FieldFilter

end RecordFilter
