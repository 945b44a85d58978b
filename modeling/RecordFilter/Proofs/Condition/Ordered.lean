import RecordFilter.Proofs.Condition.Answer
import RecordFilter.Proofs.Condition.WellTyped
import RecordFilter.Proofs.Number.Order
import RecordFilter.Proofs.Number.Rounded

/-!
# The ordered modes

The operand of a number filter stands for a point, that of a date or time filter for a span. Every
value of the type lies before it, at it or after it, and each ordered mode asks for one or two of
these three. A range asks that the value is not before its low end and not after its high end.
-/

namespace RecordFilter

/-- The sides on which a value satisfies a filter of the mode. -/
def Mode.order? : Mode → Option Comparison
  | equal => some .eq
  | lessThan | before => some .lt
  | greaterThan | after => some .gt
  | lessOrEqual => some .le
  | greaterOrEqual => some .ge
  | _ => none

namespace Number

theorem isNaN_of_integer {a : Number} {n : Int} (h : a.integer? = some n) : a.isNaN = false := by
  rw [isNaN, toReal_of_integer h, Binary64.isNaN_ofInt]

theorem isNaN_of_isFinite {n : Number} (h : n.isFinite) : n.isNaN = false := by
  cases n with
  | int m => exact isNaN_of_integer rfl
  | nat m => exact isNaN_of_integer rfl
  | real x => exact isNaN_eq_false_of_isFinite h

theorem isSome_compare? (a : Number) {b : Number} (hb : b.isNaN = false) :
    (a.compare? b).isSome = !a.isNaN := by
  have hReals : (a.toReal.compare? b.toReal).isSome = !a.isNaN := by
    rw [isNaN] at hb
    rw [Binary64.compare?, hb, Bool.or_false, isNaN]
    cases a.toReal.isNaN <;> rfl
  cases ha : a.integer? with
  | none => rwa [compare?, ha]
  | some m =>
    cases hbInt : b.integer? with
    | none => rwa [compare?, ha, hbInt]
    | some n =>
      rw [compare?_of_integers ha hbInt, isNaN_of_integer ha]
      rfl

theorem compare?_self_ne_gt (a : Number) : a.compare? a ≠ some .gt := by
  have hSelf (k : Int) : some (compare k k) ≠ some Ordering.gt := by simp
  cases ha : a.integer? with
  | some m =>
    rw [compare?_of_integers ha ha]
    exact hSelf m
  | none =>
    rw [compare?, ha]
    change Binary64.compare? _ _ ≠ _
    rw [Binary64.compare?]
    split
    · exact (Option.some_ne_none _).symm
    · exact hSelf _

end Number

/-- Whether a value is one of the data type that can be ordered: a number other than NaN, an instant
for a date, a clock time or an instant for a time. -/
def Value.isOrdered : Value → DataType → Bool
  | number n, .number => !n.isNaN
  | timestamp _, .date | timestamp _, .time | time _, .time => true
  | _, _ => false

/-- What the operand of a filter of an ordered type stands for. -/
inductive Pivot where
  | number (n : Number)
  | span (s : Calendar.Span)

namespace Pivot

def probeSide? : Pivot → Probe → Option Ordering
  | number n, p => p.compare? (.number n)
  | span s, .micros m => some (s.side m)
  | span _, _ => none

/-- Where a value lies: before the pivot, at it or after it. Values of other types and NaN lie
nowhere. -/
def side? (p : Pivot) (t : DataType) (v : Value) : Option Ordering :=
  (v.probe? t).bind p.probeSide?

def condition? (mode : Mode) : Pivot → Option Condition
  | number n => mode.comparison?.map fun op => .compare op (.number n)
  | span s => mode.spanCondition? s

/-- The condition of a range from one pivot to another, none if the range is empty. -/
def between? : Pivot → Pivot → Option Condition
  | number a, number b =>
    if a.compare? b = some .gt then none
    else some (.within (.number a) (.number b) true false)
  | span a, span b =>
    if b.stop ≤ a.start then none else some (.withinSpan a.start b.stop false)
  | _, _ => none

end Pivot

/-- Which pivot an operand is read as in a filter of an ordered type. -/
inductive Scalar.Names (x : Scalar) : DataType → Pivot → Prop where
  | number {n : Number} : x.readNumber = .ok n → x.Names .number (.number n)
  | span {t : DataType} {s : Calendar.Span} : t = .date ∨ t = .time → x.readSpan t = .ok s →
      x.Names t (.span s)

theorem Scalar.Names.exists_number {x : Scalar} {p : Pivot} (h : x.Names .number p) :
    ∃ n, p = .number n ∧ x.readNumber = .ok n := by
  cases h with
  | number hn => exact ⟨_, rfl, hn⟩
  | span ht _ => rcases ht with h | h <;> cases h

theorem Scalar.Names.exists_span {x : Scalar} {t : DataType} {p : Pivot}
    (ht : t = .date ∨ t = .time) (h : x.Names t p) : ∃ s, p = .span s ∧ x.readSpan t = .ok s := by
  cases h with
  | number _ => rcases ht with h | h <;> cases h
  | span _ hs => exact ⟨_, rfl, hs⟩

theorem Condition.matchesProbe_within (lower upper : Operand) (upperInclusive : Bool) (p : Probe) :
    (within lower upper upperInclusive false).matchesProbe p =
      ((compare .ge lower).matchesProbe p &&
        (compare (if upperInclusive then .le else .lt) upper).matchesProbe p) := by
  simp only [matchesProbe, Bool.bne_false]
  cases p.compare? lower <;> rcases p.compare? upper with _ | _ | _ | _ <;>
    cases upperInclusive <;> rfl

def microsOrder (m : Int) : Operand → Ordering
  | .micros k => compare m k
  | _ => .eq

namespace Pivot

variable {p q : Pivot} {x y : Scalar} {t : DataType} {mode : Mode} {op : Comparison} {c : Condition}

theorem isSome_side? (hp : x.Names t p) (v : Value) : (p.side? t v).isSome = v.isOrdered t := by
  cases hp with
  | @number n hn =>
    have hNaN := Number.isNaN_of_isFinite (Scalar.isFinite_of_readNumber hn)
    cases v with
    | number a => exact Number.isSome_compare? a hNaN
    | _ => rfl
  | span ht _ => rcases ht with rfl | rfl <;> cases v <;> rfl

theorem plain_condition? (hOp : mode.order? = some op) (hc : p.condition? mode = some c) :
    c.isEmptiness = false ∧ c.matchesNull = false := by
  cases p <;> cases mode <;> cases hOp <;> cases hc <;> exact ⟨rfl, rfl⟩

theorem eq_micros_of_mem_operands {s : Calendar.Span} (hc : mode.spanCondition? s = some c) :
    c.operands ≠ [] ∧ ∀ o ∈ c.operands, ∃ k, o = .micros k := by
  cases mode <;> cases hc <;> simp [Condition.operands, Condition.withinSpan]

theorem matchesProbe_spanCondition {s : Calendar.Span} (h : s.start < s.stop)
    (hOp : mode.order? = some op) (hc : mode.spanCondition? s = some c) (m : Int) :
    c.matchesProbe (.micros m) = op.holds (s.side m) := by
  obtain ⟨hSome, hMicros⟩ := eq_micros_of_mem_operands hc
  have hAnswer : c.matchesProbe (.micros m) = c.answer (microsOrder m) := by
    refine Condition.matchesProbe_eq_answer hSome fun o ho => ?_
    obtain ⟨k, rfl⟩ := hMicros o ho
    rfl
  rw [hAnswer]
  -- Whatever the mode, the order to a bound only tells on which side of the span the count is.
  cases mode <;> cases hOp <;> cases hc <;>
    rcases s.side_cases h m with ⟨hSide, hStart, hStop⟩ | ⟨hSide, hStart, hStop⟩ |
      ⟨hSide, hStart, hStop⟩ <;>
    simp [Condition.answer, Condition.withinSpan, Comparison.holds, microsOrder, bne, hSide, hStart,
      hStop]

theorem matchesProbe_condition? (hp : x.Names t p) (hOp : mode.order? = some op)
    (hc : p.condition? mode = some c) (probe : Probe) :
    c.matchesProbe probe = (p.probeSide? probe).any op.holds := by
  cases hp with
  | @number n hn =>
    obtain ⟨op', hMode, rfl⟩ := Option.map_eq_some_iff.mp hc
    obtain rfl : op' = op := by cases mode <;> cases hOp <;> cases hMode <;> rfl
    simp only [Condition.matchesProbe, probeSide?]
    cases probe.compare? (.number n) with
    | some o => rfl
    | none => cases mode <;> cases hOp <;> rfl
  | span _ hs =>
    cases probe with
    | micros m => exact matchesProbe_spanCondition (Scalar.proper_of_readSpan hs).start_lt_stop hOp hc m
    | _ => cases mode <;> cases hOp <;> cases hc <;> rfl

/-- A value satisfies an ordered filter exactly when it lies on a side that the mode asks for. -/
theorem matchesValue_condition? (hp : x.Names t p) (hOp : mode.order? = some op)
    (hc : p.condition? mode = some c) (projection : Projection) (v : Value) :
    CompiledCondition.matchesValue ⟨t, projection, c⟩ v = (p.side? t v).any op.holds := by
  obtain ⟨hEmpty, hNull⟩ := plain_condition? hOp hc
  rw [Condition.matchesValue_of_not_isEmptiness (c := ⟨t, projection, c⟩) hEmpty, side?]
  cases v.probe? t with
  | none => exact hNull
  | some probe => exact matchesProbe_condition? hp hOp hc probe

theorem exists_within_of_between? (hc : p.between? q = some c) :
    ∃ lower upper upperInclusive, c = .within lower upper upperInclusive false ∧
      p.condition? .greaterOrEqual = some (.compare .ge lower) ∧
      q.condition? .lessOrEqual =
        some (.compare (if upperInclusive then .le else .lt) upper) := by
  cases p <;> cases q <;> simp only [between?, reduceCtorEq] at hc <;> split at hc <;> cases hc
  · exact ⟨_, _, true, rfl, rfl, rfl⟩
  · exact ⟨_, _, false, rfl, rfl, rfl⟩

theorem matchesValue_between? (hc : p.between? q = some c) (projection : Projection) :
    ∃ low high, p.condition? .greaterOrEqual = some low ∧ q.condition? .lessOrEqual = some high ∧
      ∀ v, CompiledCondition.matchesValue ⟨t, projection, c⟩ v =
        (CompiledCondition.matchesValue ⟨t, projection, low⟩ v &&
          CompiledCondition.matchesValue ⟨t, projection, high⟩ v) := by
  obtain ⟨lower, upper, upperInclusive, rfl, hLow, hHigh⟩ := exists_within_of_between? hc
  refine ⟨_, _, hLow, hHigh, fun v => ?_⟩
  simp only [CompiledCondition.matchesValue]
  cases v.probe? t with
  | none => rfl
  | some probe => exact Condition.matchesProbe_within lower upper upperInclusive probe

theorem exists_between?_self (hp : x.Names t p) : ∃ c, p.between? p = some c := by
  cases hp with
  | @number n _ => exact ⟨_, if_neg (Number.compare?_self_ne_gt n)⟩
  | span _ hs =>
    have h := (Scalar.proper_of_readSpan hs).start_lt_stop
    exact ⟨_, if_neg (by omega)⟩

theorem exists_condition? (p : Pivot) (m : Mode) (hOp : m.order? = some op)
    (hNumber : m.supports .number = true) : ∃ c, p.condition? m = some c := by
  cases m <;> cases hOp <;> cases hNumber <;> cases p <;> exact ⟨_, rfl⟩

theorem side_any_le (o : Option Ordering) :
    o.any Comparison.le.holds = (o.any Comparison.lt.holds || o.any Comparison.eq.holds) := by
  rcases o with _ | _ | _ | _ <;> rfl

theorem side_any_ge (o : Option Ordering) :
    o.any Comparison.ge.holds = (o.any Comparison.gt.holds || o.any Comparison.eq.holds) := by
  rcases o with _ | _ | _ | _ <;> rfl

theorem side_any_eq (o : Option Ordering) :
    o.any Comparison.eq.holds = (o.any Comparison.ge.holds && o.any Comparison.le.holds) := by
  rcases o with _ | _ | _ | _ <;> rfl

theorem side_countP (o : Option Ordering) :
    [Comparison.lt, .eq, .gt].countP (fun op => o.any op.holds) = if o.isSome then 1 else 0 := by
  rcases o with _ | _ | _ | _ <;> rfl

end Pivot

namespace FieldFilter

variable {field : String} {t : DataType} {mode : Mode} {op : Comparison} {x low high : Scalar}

def scalar (field : String) (t : DataType) (mode : Mode) (x : Scalar) : FieldFilter :=
  { field, mode, dataType := t, value := some (.scalar x) }

def between (field : String) (t : DataType) (low high : Scalar) : FieldFilter :=
  { field, mode := .range, dataType := t, value := some (.range low high) }

theorem compileValue_scalar_eq_ok_iff (ht : t = .number ∨ t = .date ∨ t = .time)
    (hMode : mode ≠ .range) {c : Condition} :
    (scalar field t mode x).compileValue = .ok c ↔
      ∃ p, x.Names t p ∧ p.condition? mode = some c := by
  rcases ht with rfl | ht
  · refine (compileNumber_eq_ok_iff hMode).trans ⟨?_, ?_⟩
    · rintro ⟨v, n, op, hValue, hn, hOp, rfl⟩
      cases hValue
      exact ⟨.number n, .number hn, Option.map_eq_some_iff.mpr ⟨op, hOp, rfl⟩⟩
    · rintro ⟨p, hp, hc⟩
      obtain ⟨n, rfl, hn⟩ := hp.exists_number
      obtain ⟨op, hOp, rfl⟩ := Option.map_eq_some_iff.mp hc
      exact ⟨x, n, op, rfl, hn, hOp, rfl⟩
  · have hTemporal : (scalar field t mode x).compileValue =
        (scalar field t mode x).compileTemporal := by
      rcases ht with rfl | rfl <;> rfl
    rw [hTemporal, compileTemporal_eq_ok_iff hMode]
    constructor
    · rintro ⟨v, s, hValue, hs, hc⟩
      cases hValue
      exact ⟨.span s, .span ht hs, hc⟩
    · rintro ⟨p, hp, hc⟩
      obtain ⟨s, rfl, hs⟩ := hp.exists_span ht
      exact ⟨x, s, rfl, hs, hc⟩

theorem compileValue_between_eq_ok_iff (ht : t = .number ∨ t = .date ∨ t = .time) {c : Condition} :
    (between field t low high).compileValue = .ok c ↔
      ∃ p q, low.Names t p ∧ high.Names t q ∧ p.between? q = some c := by
  rcases ht with rfl | ht
  · refine (compileNumber_range_eq_ok_iff rfl).trans ⟨?_, ?_⟩
    · rintro ⟨low, high, lower, upper, hValue, hLower, hUpper, hEmpty, rfl⟩
      cases hValue
      exact ⟨.number lower, .number upper, .number hLower, .number hUpper, if_neg hEmpty⟩
    · rintro ⟨p, q, hp, hq, hc⟩
      obtain ⟨lower, rfl, hLower⟩ := hp.exists_number
      obtain ⟨upper, rfl, hUpper⟩ := hq.exists_number
      obtain ⟨hEmpty, hc⟩ := Option.ite_none_left_eq_some.mp hc
      exact ⟨low, high, lower, upper, rfl, hLower, hUpper, hEmpty, Option.some.inj hc⟩
  · have hTemporal : (between field t low high).compileValue =
        (between field t low high).compileTemporal := by
      rcases ht with rfl | rfl <;> rfl
    rw [hTemporal, compileTemporal_range_eq_ok_iff rfl]
    constructor
    · rintro ⟨low, high, first, last, hValue, hFirst, hLast, hEmpty, rfl⟩
      cases hValue
      exact ⟨.span first, .span last, .span ht hFirst, .span ht hLast, if_neg hEmpty⟩
    · rintro ⟨p, q, hp, hq, hc⟩
      obtain ⟨first, rfl, hFirst⟩ := hp.exists_span ht
      obtain ⟨last, rfl, hLast⟩ := hq.exists_span ht
      obtain ⟨hEmpty, hc⟩ := Option.ite_none_left_eq_some.mp hc
      exact ⟨low, high, first, last, rfl, hFirst, hLast, hEmpty, Option.some.inj hc⟩

theorem compile_scalar_eq_ok_iff (ht : t = .number ∨ t = .date ∨ t = .time)
    (hOp : mode.order? = some op) {kind : ColumnKind} {c : CompiledCondition} :
    (scalar field t mode x).compile kind = .ok c ↔ mode.supports t = true ∧
      kind.projection? t = some c.projection ∧ c.dataType = t ∧
      ∃ p, x.Names t p ∧ p.condition? mode = some c.condition := by
  have hNullary : mode.isNullary = false := by cases mode <;> cases hOp <;> rfl
  have hRange : mode ≠ .range := by rintro rfl; cases hOp
  rw [compile_eq_ok_iff]
  refine and_congr_right' (and_congr_right' (and_congr_right' ?_))
  simp only [scalar, hNullary, Bool.false_eq_true, if_false]
  exact compileValue_scalar_eq_ok_iff ht hRange

theorem compile_between_eq_ok_iff (ht : t = .number ∨ t = .date ∨ t = .time) {kind : ColumnKind}
    {c : CompiledCondition} :
    (between field t low high).compile kind = .ok c ↔
      kind.projection? t = some c.projection ∧ c.dataType = t ∧
      ∃ p q, low.Names t p ∧ high.Names t q ∧ p.between? q = some c.condition := by
  have hSupports : Mode.range.supports t = true := by rcases ht with rfl | rfl | rfl <;> rfl
  rw [compile_eq_ok_iff, ← compileValue_between_eq_ok_iff ht]
  exact and_iff_right hSupports

/-- Less, equal and greater partition the values of an ordered type. The other modes are their
unions, and a range is the intersection of the modes of its ends. -/
theorem ordered_modes_partition (ht : t = .number ∨ t = .date ∨ t = .time) (field : String)
    (kind : ColumnKind) :
    (∀ x eq, (scalar field t .equal x).compile kind = .ok eq →
      ∃ lt gt le ge both, (scalar field t .lessThan x).compile kind = .ok lt ∧
        (scalar field t .greaterThan x).compile kind = .ok gt ∧
        (scalar field t .lessOrEqual x).compile kind = .ok le ∧
        (scalar field t .greaterOrEqual x).compile kind = .ok ge ∧
        (between field t x x).compile kind = .ok both ∧
        (t ≠ .number → (scalar field t .before x).compile kind = .ok lt ∧
          (scalar field t .after x).compile kind = .ok gt) ∧
        ∀ v, [lt, eq, gt].countP (·.matchesValue v) = (if v.isOrdered t then 1 else 0) ∧
          le.matchesValue v = (lt.matchesValue v || eq.matchesValue v) ∧
          ge.matchesValue v = (gt.matchesValue v || eq.matchesValue v) ∧
          both.matchesValue v = eq.matchesValue v) ∧
    ∀ low high both, (between field t low high).compile kind = .ok both →
      ∃ ge le, (scalar field t .greaterOrEqual low).compile kind = .ok ge ∧
        (scalar field t .lessOrEqual high).compile kind = .ok le ∧
        ∀ v, both.matchesValue v = (ge.matchesValue v && le.matchesValue v) := by
  have hOrdered : Mode.range.supports t = true := by rcases ht with rfl | rfl | rfl <;> rfl
  constructor
  · rintro x ⟨t', projection, eq⟩ hc
    obtain ⟨-, hProjection, rfl, p, hp, hEq⟩ := (compile_scalar_eq_ok_iff ht rfl).mp hc
    have hCompile {mode op c} (hOp : mode.order? = some op) (hSupports : mode.supports t' = true)
        (hc : p.condition? mode = some c) :
        (scalar field t' mode x).compile kind = .ok ⟨t', projection, c⟩ :=
      (compile_scalar_eq_ok_iff ht hOp).mpr ⟨hSupports, hProjection, rfl, p, hp, hc⟩
    obtain ⟨lt, hLt⟩ := p.exists_condition? .lessThan rfl rfl
    obtain ⟨gt, hGt⟩ := p.exists_condition? .greaterThan rfl rfl
    obtain ⟨le, hLe⟩ := p.exists_condition? .lessOrEqual rfl rfl
    obtain ⟨ge, hGe⟩ := p.exists_condition? .greaterOrEqual rfl rfl
    obtain ⟨both, hBoth⟩ := Pivot.exists_between?_self hp
    refine ⟨⟨t', projection, lt⟩, ⟨t', projection, gt⟩, ⟨t', projection, le⟩,
      ⟨t', projection, ge⟩, ⟨t', projection, both⟩, hCompile rfl hOrdered hLt,
      hCompile rfl hOrdered hGt, hCompile rfl hOrdered hLe, hCompile rfl hOrdered hGe,
      (compile_between_eq_ok_iff ht).mpr ⟨hProjection, rfl, p, p, hp, hp, hBoth⟩, ?_, ?_⟩
    · intro hNumber
      have hTemporal : Mode.before.supports t' = true := by
        rcases ht with rfl | rfl | rfl
        · exact absurd rfl hNumber
        · rfl
        · rfl
      cases hp with
      | number _ => exact absurd rfl hNumber
      | span _ _ => exact ⟨hCompile rfl hTemporal hLt, hCompile rfl hTemporal hGt⟩
    · intro v
      obtain ⟨ge', le', hGe', hLe', hRange⟩ :=
        Pivot.matchesValue_between? hBoth projection (t := t')
      obtain rfl := Option.some.inj (hGe.symm.trans hGe')
      obtain rfl := Option.some.inj (hLe.symm.trans hLe')
      have hCount := Pivot.side_countP (p.side? t' v)
      simp only [List.countP_cons, List.countP_nil] at hCount ⊢
      simp only [hRange, Pivot.matchesValue_condition? hp rfl hEq,
        Pivot.matchesValue_condition? hp rfl hLt, Pivot.matchesValue_condition? hp rfl hGt,
        Pivot.matchesValue_condition? hp rfl hLe, Pivot.matchesValue_condition? hp rfl hGe,
        ← Pivot.isSome_side? hp]
      exact ⟨hCount, Pivot.side_any_le _, Pivot.side_any_ge _, (Pivot.side_any_eq _).symm⟩
  · rintro low high ⟨t', projection, c⟩ hc
    obtain ⟨hProjection, rfl, p, q, hp, hq, hc⟩ := (compile_between_eq_ok_iff ht).mp hc
    obtain ⟨ge, le, hGe, hLe, hBoth⟩ := Pivot.matchesValue_between? hc projection
    exact ⟨⟨t', projection, ge⟩, ⟨t', projection, le⟩,
      (compile_scalar_eq_ok_iff ht rfl).mpr ⟨hOrdered, hProjection, rfl, p, hp, hGe⟩,
      (compile_scalar_eq_ok_iff ht rfl).mpr ⟨hOrdered, hProjection, rfl, q, hq, hLe⟩, hBoth⟩

/-- Every instant is before, in or after the first of February, and the two days from then on are
those from it to the second. -/
theorem partition_at_february :
    (∃ lt eq gt, (scalar "due" .date .lessThan (.text "2024-02-01")).compile .timestamp = .ok lt ∧
      (scalar "due" .date .equal (.text "2024-02-01")).compile .timestamp = .ok eq ∧
      (scalar "due" .date .greaterThan (.text "2024-02-01")).compile .timestamp = .ok gt ∧
      ∀ t, [lt, eq, gt].countP (·.matchesValue (.timestamp t)) = 1) ∧
    ∃ both ge le,
      (between "due" .date (.text "2024-02-01") (.text "2024-02-02")).compile .timestamp =
        .ok both ∧
      (scalar "due" .date .greaterOrEqual (.text "2024-02-01")).compile .timestamp = .ok ge ∧
      (scalar "due" .date .lessOrEqual (.text "2024-02-02")).compile .timestamp = .ok le ∧
      ∀ v, both.matchesValue v = (ge.matchesValue v && le.matchesValue v) := by
  obtain ⟨hModes, hRanges⟩ := ordered_modes_partition (.inr (.inl rfl)) "due" .timestamp
  constructor
  · have hEq : (scalar "due" .date .equal (.text "2024-02-01")).compile .timestamp =
        .ok ⟨.date, .identity, .withinSpan 1706745600000000 1706832000000000 false⟩ := by
      decide +kernel
    obtain ⟨lt, gt, le, ge, both, hLt, hGt, -, -, -, -, hSplit⟩ := hModes _ _ hEq
    exact ⟨lt, _, gt, hLt, hEq, hGt, fun t => (hSplit (.timestamp t)).1⟩
  · have hBoth :
        (between "due" .date (.text "2024-02-01") (.text "2024-02-02")).compile .timestamp =
          .ok ⟨.date, .identity, .withinSpan 1706745600000000 1706918400000000 false⟩ := by
      decide +kernel
    obtain ⟨ge, le, hGe, hLe, hMeet⟩ := hRanges _ _ _ hBoth
    exact ⟨_, ge, le, hBoth, hGe, hLe, hMeet⟩

end FieldFilter

end RecordFilter
