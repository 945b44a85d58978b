import RecordFilter.Proofs.Calendar.Bounds
import RecordFilter.Proofs.Sql.TimeOfDay
import RecordFilter.Value

/-!
# Stored times

A timestamp or a clock time is stored as its microseconds, and whichever microseconds are read as
one are its own again. The microsecond of the day is one number however it comes about: as a floored
remainder, as the clock time of the instant, or as the expression of the databases, which cut off
toward zero and have 64 bits for every value on the way.
-/

namespace RecordFilter

/-- The UTC time of day of an instant, a leap second counted as the clock counts it. -/
def Instant.clockTime (t : Instant) : ClockTime where
  second := (t.seconds % 86400).toNat
  nanos := t.nanos
  nanos_lt := t.nanos_lt

variable {m : Int}

namespace Instant

variable {t : Instant}

theorem micros_clockTime (h : t.nanos < 1000000000) : t.clockTime.micros = t.timeOfDay := by
  have hClock : t.clockTime.micros =
      ((t.seconds % 86400).toNat : Int) * 1000000 + (min t.nanos 999999999 / 1000 : Nat) := rfl
  have hDay : t.timeOfDay =
      (t.seconds * 1000000 + (t.nanos / 1000 : Nat)) % 86400000000 := rfl
  omega

theorem exists_ofMicros?_iff :
    (∃ t, ofMicros? m = some t) ↔ Date.inRange (m / microsPerDay) = true := by
  constructor
  · rintro ⟨t, h⟩
    exact (Option.ite_none_right_eq_some.mp h).1
  · intro h
    exact ⟨_, if_pos h⟩

theorem nanos_lt_of_ofMicros? (h : ofMicros? m = some t) : t.nanos < 1000000000 := by
  obtain ⟨-, h⟩ := Option.ite_none_right_eq_some.mp h
  obtain rfl := Option.some.inj h
  simp only [microsPerSecond]
  omega

theorem timeOfDay_of_ofMicros? (h : ofMicros? m = some t) : t.timeOfDay = m % microsPerDay := by
  rw [timeOfDay, micros_of_ofMicros? h]

end Instant

namespace ClockTime

variable {c : ClockTime}

theorem unsigned32?_eq_some_iff {n : Nat} :
    unsigned32? m = some n ↔ m = n ∧ n < UInt32.size := by
  rw [unsigned32?, Option.ite_none_right_eq_some, Option.some.injEq]
  omega

theorem micros_of_ofMicros? (h : ofMicros? m = some c) : c.micros = m := by
  obtain ⟨second, hSecond, h⟩ := Option.bind_eq_some_iff.mp h
  obtain ⟨nanos, hNanos, h⟩ := Option.bind_eq_some_iff.mp h
  obtain ⟨_, h⟩ := Option.dite_none_right_eq_some.mp h
  obtain rfl := Option.some.inj h
  obtain ⟨hSecond, -⟩ := unsigned32?_eq_some_iff.mp hSecond
  obtain ⟨hNanos, -⟩ := unsigned32?_eq_some_iff.mp hNanos
  simp only [micros, microsPerSecond] at hSecond hNanos ⊢
  omega

theorem exists_ofMicros? (hNonneg : 0 ≤ m) (hLess : m < microsPerDay) :
    ∃ c, ofMicros? m = some c := by
  simp only [microsPerDay] at hLess
  have hSecond : unsigned32? (m / microsPerSecond) = some (m.toNat / 1000000) := by
    rw [unsigned32?_eq_some_iff]
    simp only [microsPerSecond, UInt32.size]
    omega
  have hNanos : unsigned32? (m % microsPerSecond * 1000) = some (m.toNat % 1000000 * 1000) := by
    rw [unsigned32?_eq_some_iff]
    simp only [microsPerSecond, UInt32.size]
    omega
  simp only [ofMicros?, hSecond, hNanos, Option.bind_eq_bind, Option.bind_some]
  exact ⟨_, dif_pos (by omega)⟩

theorem exists_ofMicros?_iff : (∃ c, ofMicros? m = some c) ↔ 0 ≤ m ∧ m < microsPerDay := by
  constructor
  · rintro ⟨c, hc⟩
    rw [← micros_of_ofMicros? hc]
    exact ⟨c.micros_nonneg, c.micros_lt⟩
  · exact fun ⟨hNonneg, hLess⟩ => exists_ofMicros? hNonneg hLess

end ClockTime

namespace Sql

variable {α : Type} {row : α → StoredValue} {ps : Parameters} {e : Term α}

/-- A term and the terms that it is made of, each evaluated on its own. -/
def Term.subterms : Term α → List (Term α)
  | .fold e => .fold e :: e.subterms
  | .add a b => .add a b :: (a.subterms ++ b.subterms)
  | .remainder a b => .remainder a b :: (a.subterms ++ b.subterms)
  | e => [e]

/-- No integer that arises when the term is evaluated overflows 64 bits. -/
def Term.StaysIn64 (row : α → StoredValue) (ps : Parameters) (e : Term α) : Prop :=
  ∀ e' ∈ e.subterms, ∀ n, e'.eval row ps = .integer n → IsSigned64 n

theorem isSigned64_toInt (m : Int64) : IsSigned64 m.toInt := ⟨m.le_toInt, m.toInt_lt⟩

theorem Term.staysIn64_column {c : α} (h : row c = .integer m) (hm : IsSigned64 m) :
    (Term.column c).StaysIn64 row ps := by
  intro e' he' n hn
  obtain rfl := List.mem_singleton.mp he'
  cases h.symm.trans hn
  exact hm

theorem Term.staysIn64_integer {n : Nat} (h : IsSigned64 n) :
    (Term.integer n : Term α).StaysIn64 row ps := by
  intro e' he' k hk
  obtain rfl := List.mem_singleton.mp he'
  cases hk
  exact h

theorem Term.StaysIn64.of_parts {a b : Term α} {n : Int} (ha : a.StaysIn64 row ps)
    (hb : b.StaysIn64 row ps) (hParts : e.subterms = e :: (a.subterms ++ b.subterms))
    (hValue : e.eval row ps = .integer n) (hn : IsSigned64 n) : e.StaysIn64 row ps := by
  intro e' he' k hk
  rw [hParts] at he'
  rcases List.mem_cons.mp he' with rfl | he'
  · cases hValue.symm.trans hk
    exact hn
  · rcases List.mem_append.mp he' with he' | he'
    · exact ha e' he' k hk
    · exact hb e' he' k hk

theorem staysIn64_timeOfDay (h : e.StaysIn64 row ps) (hValue : e.eval row ps = .integer m) :
    e.timeOfDay.StaysIn64 row ps := by
  have hPos : (0 : Int) < microsPerDay := by decide
  have hNe : (microsPerDay : Int) ≠ 0 := by decide
  have hLow := Int.lt_tmod_of_pos m hPos
  have hHigh := Int.tmod_lt_of_pos m hPos
  have hDay : (Term.integer microsPerDay : Term α).StaysIn64 row ps :=
    Term.staysIn64_integer (by decide)
  have hRemainder : (Term.remainder e (.integer microsPerDay)).eval row ps =
      .integer (m.tmod microsPerDay) := by
    rw [Term.eval, hValue, Term.eval, integerRemainder_integer hNe]
  have hAdd : (Term.add (.remainder e (.integer microsPerDay)) (.integer microsPerDay)).eval row ps =
      .integer (m.tmod microsPerDay + microsPerDay) := by
    rw [Term.eval, hRemainder, Term.eval, integerArithmetic]
  have hResult := eval_timeOfDay hValue
  have hNonneg := Int.emod_nonneg m hNe
  have hLess := Int.emod_lt_of_pos m hPos
  have hSize : (microsPerDay : Int) = 86400000000 := rfl
  -- The first remainder is less than a day from zero, so the sum stays below two days.
  have hRest := h.of_parts hDay rfl hRemainder (by unfold IsSigned64; omega)
  have hSum := hRest.of_parts hDay rfl hAdd (by unfold IsSigned64; omega)
  exact hSum.of_parts hDay rfl hResult (by unfold IsSigned64; omega)

theorem text_timeOfDay (d : Dialect) (column : α → String) (e : Term α) :
    e.timeOfDay.text d column =
      "(((" ++ e.text d column ++ " % 86400000000) + 86400000000) % 86400000000)" := by
  have hDay : microsPerDay.repr = "86400000000" := by decide +kernel
  refine String.toList_inj.mp ?_
  simp only [Term.timeOfDay, Term.text, hDay, String.toList_append, List.append_assoc]
  rfl

end Sql

open Sql

/-- Every stored count has one microsecond of the day: the floored remainder. The expression of the
databases comes to it without an overflow, and so does the instant that the count is read as, or the
clock time of that instant. Such an instant has the count it is read from, and there is one for each
day of the calendar. So has a clock time, and there is one for each microsecond of the day. -/
theorem stored_time_of_day (m : Int64) :
    (∀ {α : Type} (row : α → StoredValue) (ps : Parameters) (c : α),
      row c = .integer m.toInt →
        (Term.timeOfDay (.column c)).StaysIn64 row ps ∧
        (Term.timeOfDay (.column c)).eval row ps = .integer (m.toInt % microsPerDay)) ∧
    (∀ {α : Type} (d : Dialect) (column : α → String) (c : α),
      (Term.timeOfDay (.column c)).text d column =
        "(((" ++ column c ++ " % 86400000000) + 86400000000) % 86400000000)") ∧
    (0 ≤ m.toInt % microsPerDay ∧ m.toInt % microsPerDay < microsPerDay) ∧
    ((∃ t, Instant.ofMicros? m.toInt = some t) ↔
      Date.inRange (m.toInt / microsPerDay) = true) ∧
    (∀ t, Instant.ofMicros? m.toInt = some t →
      (Value.timestamp t).timestampMicros? = some m.toInt ∧
      (Value.timestamp t).timeOfDayMicros? = some (m.toInt % microsPerDay) ∧
      (Value.time t.clockTime).timeOfDayMicros? = some (m.toInt % microsPerDay)) ∧
    ((∃ c, ClockTime.ofMicros? m.toInt = some c) ↔ 0 ≤ m.toInt ∧ m.toInt < microsPerDay) ∧
    ∀ c, ClockTime.ofMicros? m.toInt = some c → c.micros = m.toInt := by
  refine ⟨?_, ?_, ?_, Instant.exists_ofMicros?_iff, ?_, ClockTime.exists_ofMicros?_iff,
    fun _ => ClockTime.micros_of_ofMicros?⟩
  · intro α row ps c hCell
    have hValue : (Term.column c).eval row ps = .integer m.toInt := hCell
    have hColumn : (Term.column c).StaysIn64 row ps :=
      Term.staysIn64_column hCell (isSigned64_toInt m)
    exact ⟨staysIn64_timeOfDay hColumn hValue, eval_timeOfDay hValue⟩
  · exact fun d column c => text_timeOfDay d column (.column c)
  · exact ⟨Int.emod_nonneg _ (by decide), Int.emod_lt_of_pos _ (by decide)⟩
  · intro t ht
    have hDay := Instant.timeOfDay_of_ofMicros? ht
    refine ⟨congrArg some (Instant.micros_of_ofMicros? ht), congrArg some hDay, ?_⟩
    rw [Value.timeOfDayMicros?, Instant.micros_clockTime (Instant.nanos_lt_of_ofMicros? ht), hDay]

/-- A microsecond before 1970, the last of its day. -/
theorem stored_time_before_1970 :
    ((Term.timeOfDay (.column ())).StaysIn64 (fun _ => .integer (-1)) {} ∧
      (Term.timeOfDay (.column ())).eval (fun _ => .integer (-1)) {} = .integer 86399999999) ∧
    (∃ t, Instant.ofMicros? (-1) = some t ∧
      (Value.timestamp t).timestampMicros? = some (-1) ∧
      (Value.timestamp t).timeOfDayMicros? = some 86399999999 ∧
      (Value.time t.clockTime).timeOfDayMicros? = some 86399999999) ∧
    ∃ c, ClockTime.ofMicros? 86399999999 = some c ∧ c.micros = 86399999999 := by
  obtain ⟨hSql, -, -, -, hInstant, -, -⟩ := stored_time_of_day (-1)
  obtain ⟨-, -, -, -, -, hExists, hMicros⟩ := stored_time_of_day 86399999999
  refine ⟨hSql _ {} () rfl, ?_, ?_⟩
  · exact ⟨⟨-1, 999999000, by decide⟩, by decide +kernel, hInstant _ (by decide +kernel)⟩
  · obtain ⟨c, hc⟩ := hExists.mpr (by decide +kernel)
    exact ⟨c, hc, hMicros c hc⟩

end RecordFilter
