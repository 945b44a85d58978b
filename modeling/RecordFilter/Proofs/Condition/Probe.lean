import RecordFilter.Condition.Match

/-!
# The probes of values

A value has a probe in the data type that it is of. An instant also has one as a time of day. No
other value fits the type, and probes in one type are of one form.
-/

namespace RecordFilter

namespace Value

inductive HasProbe : Value → DataType → Probe → Prop where
  | text (s : String) : HasProbe (.text s) .text (.text s)
  | number (n : Number) : HasProbe (.number n) .number (.number n)
  | bool (b : Bool) : HasProbe (.bool b) .boolean (.bool b)
  | date (t : Instant) : HasProbe (.timestamp t) .date (.micros t.micros)
  | clock (t : ClockTime) : HasProbe (.time t) .time (.micros t.micros)
  | timeOfDay (t : Instant) : HasProbe (.timestamp t) .time (.micros t.timeOfDay)

/-- Whether values of the data type are compared with the value. -/
def Fits (v : Value) (t : DataType) : Prop := ∃ p, v.HasProbe t p

variable {v : Value} {t : DataType} {p : Probe}

theorem probe?_eq_some_iff : v.probe? t = some p ↔ v.HasProbe t p := by
  constructor
  · intro h
    cases t <;> cases v <;> cases h <;> constructor
  · intro h
    cases h <;> rfl

theorem eq_text_of_probe? (h : v.probe? .text = some p) : ∃ s, p = .text s := by
  cases probe?_eq_some_iff.mp h
  exact ⟨_, rfl⟩

theorem eq_bool_of_probe? (h : v.probe? .boolean = some p) : ∃ b, p = .bool b := by
  cases probe?_eq_some_iff.mp h
  exact ⟨_, rfl⟩

theorem eq_micros_of_probe? (ht : t = .date ∨ t = .time) (h : v.probe? t = some p) :
    ∃ m, p = .micros m := by
  rcases ht with rfl | rfl <;> cases probe?_eq_some_iff.mp h <;> exact ⟨_, rfl⟩

theorem eq_number_of_probe? {n : Number} (h : v.probe? t = some (.number n)) : v = .number n := by
  cases probe?_eq_some_iff.mp h
  rfl

theorem eq_number_of_probe?_number (h : v.probe? .number = some p) :
    ∃ n, v = .number n ∧ p = .number n := by
  cases probe?_eq_some_iff.mp h
  exact ⟨_, rfl, rfl⟩

end Value

inductive Probe.SameForm : Probe → Probe → Prop where
  | text (s t : String) : SameForm (.text s) (.text t)
  | number (m n : Number) : SameForm (.number m) (.number n)
  | bool (a b : Bool) : SameForm (.bool a) (.bool b)
  | micros (m n : Int) : SameForm (.micros m) (.micros n)

theorem Probe.sameForm_of_hasProbe {a b : Value} {t : DataType} {p q : Probe}
    (hp : a.HasProbe t p) (hq : b.HasProbe t q) : p.SameForm q := by
  cases hp <;> cases hq <;> constructor

end RecordFilter
