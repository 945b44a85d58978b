import RecordFilter.Proofs.Number.Filters

/-!
# The order in which numbers are sorted

Among themselves integers are ordered exactly and so are reals, with the NaNs of either sign at
their own end. An integer that meets a real is rounded first. So the order is that of the exact
values except where an integer rounds onto the real, and it is transitive except where a real
bridges two different integers that both round onto it.
-/

namespace RecordFilter

open Sql

namespace Binary64

theorem scaled_eq_scaled_iff (x y : Binary64) : x.scaled = y.scaled ↔ x.key = y.key := by
  have hxy := scaled_lt_scaled_iff x y
  have hyx := scaled_lt_scaled_iff y x
  omega

/-- Where a number stands among all others: a NaN by its word, any other number by its value. -/
def place (x : Binary64) : Int := if x.isNaN then x.wordKey else x.key

theorem place_of_not_isNaN {x : Binary64} (h : x.isNaN = false) : x.place = x.key := by
  rw [place, h]
  rfl

theorem place_of_isNaN {x : Binary64} (h : x.isNaN = true) : x.place = x.wordKey := by
  rw [place, h]
  rfl

theorem keys_bounded {x : Binary64} (h : x.isNaN = false) :
    (-(infinityMagnitude : Int) ≤ x.key ∧ x.key ≤ infinityMagnitude) ∧
      -(infinityMagnitude : Int) - 1 ≤ x.wordKey ∧ x.wordKey ≤ infinityMagnitude := by
  have hMagnitude := magnitude_le_of_not_isNaN h
  simp only [key, wordKey]
  split <;> omega

theorem wordKey_lt_of_isNaN {x : Binary64} (h : x.isNaN = true) (hNegative : x.isNegative = true) :
    x.wordKey < -(infinityMagnitude : Int) - 1 := by
  have hMagnitude : infinityMagnitude < x.magnitude := by simpa [isNaN] using h
  rw [wordKey, if_pos hNegative]
  omega

theorem lt_wordKey_of_isNaN {x : Binary64} (h : x.isNaN = true) (hPositive : x.isNegative = false) :
    infinityMagnitude < x.wordKey := by
  have hMagnitude : infinityMagnitude < x.magnitude := by simpa [isNaN] using h
  rw [wordKey, if_neg (by simp [hPositive])]
  omega

/-- A NaN stands before or after all other numbers by its sign, whichever way those are placed. -/
theorem compare_wordKey_of_isNaN {x : Binary64} (h : x.isNaN = true) {k : Int}
    (hLow : -(infinityMagnitude : Int) - 1 ≤ k) (hHigh : k ≤ infinityMagnitude) :
    compare x.wordKey k = if x.isNegative then .lt else .gt := by
  cases hSign : x.isNegative with
  | true => exact compare_lt_iff_lt.mpr ((wordKey_lt_of_isNaN h hSign).trans_le hLow)
  | false => exact compare_gt_iff_gt.mpr (hHigh.trans_lt (lt_wordKey_of_isNaN h hSign))

theorem isNaN_eq_false_of_place_eq {x y : Binary64} (h : x.place = y.place)
    (hy : y.isNaN = false) : x.isNaN = false := by
  by_contra hx
  rw [Bool.not_eq_false] at hx
  obtain ⟨⟨hLow, hHigh⟩, -⟩ := keys_bounded hy
  rw [place_of_isNaN hx, place_of_not_isNaN hy] at h
  cases hSign : x.isNegative with
  | true =>
    have hBelow := wordKey_lt_of_isNaN hx hSign
    omega
  | false =>
    have hAbove := lt_wordKey_of_isNaN hx hSign
    omega

theorem compareWords_eq_of_isNaN {x y : Binary64} (h : x.isNaN = true) :
    x.compareWords y = compare x.place y.place := by
  rw [compareWords, place_of_isNaN h]
  cases hy : y.isNaN with
  | true => rw [place_of_isNaN hy]
  | false =>
    obtain ⟨⟨hKeyLow, hKeyHigh⟩, hWordLow, hWordHigh⟩ := keys_bounded hy
    rw [place_of_not_isNaN hy, compare_wordKey_of_isNaN h hWordLow hWordHigh,
      compare_wordKey_of_isNaN h (by omega) hKeyHigh]

theorem compareWords_swap (x y : Binary64) : y.compareWords x = (x.compareWords y).swap :=
  (Int.compare_swap ..).symm

theorem getD_compare?_eq (x y : Binary64) :
    (x.compare? y).getD (x.compareWords y) = compare x.place y.place := by
  rw [compare?]
  cases hx : x.isNaN with
  | true => exact compareWords_eq_of_isNaN hx
  | false =>
    cases hy : y.isNaN with
    | true =>
      have hSwapped := compareWords_eq_of_isNaN (y := x) hy
      rw [compareWords_swap, Ordering.swap_eq_iff_eq_swap, Int.compare_swap] at hSwapped
      exact hSwapped
    | false => rw [place_of_not_isNaN hx, place_of_not_isNaN hy]; rfl

end Binary64

namespace Number

def isNaN (a : Number) : Bool := a.toReal.isNaN

def place (a : Number) : Int := a.toReal.place

theorem toReal_of_integer {a : Number} {n : Int} (h : a.integer? = some n) :
    a.toReal = .ofInt n := by
  cases a with
  | int m => cases h; rfl
  | nat m => cases h; rfl
  | real x => cases h

theorem eq_real_of_integer?_eq_none {a : Number} (h : a.integer? = none) : ∃ x, a = real x := by
  cases a with
  | real x => exact ⟨x, rfl⟩
  | int m => cases h
  | nat m => cases h

theorem order_of_integers {a b : Number} {m n : Int} (ha : a.integer? = some m)
    (hb : b.integer? = some n) : a.order b = compare m n :=
  order_of_compare? (compare?_of_integers ha hb)

theorem order_of_not_integers {a b : Number} (h : a.integer? = none ∨ b.integer? = none) :
    a.order b = compare a.place b.place := by
  rw [place, place, ← Binary64.getD_compare?_eq, order, compare?]
  rcases h with h | h
  · rw [h]
  · rw [h]
    cases a.integer? <;> rfl

theorem place_of_integer {a : Number} {n : Int} (h : a.integer? = some n) :
    a.place = (Binary64.ofInt n).key := by
  rw [place, toReal_of_integer h, Binary64.place_of_not_isNaN (Binary64.isNaN_ofInt n)]

theorem order_swap (a b : Number) : b.order a = (a.order b).swap := by
  cases ha : a.integer? with
  | none => rw [order_of_not_integers (.inl ha), order_of_not_integers (.inr ha), Int.compare_swap]
  | some m =>
    cases hb : b.integer? with
    | none => rw [order_of_not_integers (.inl hb), order_of_not_integers (.inr hb), Int.compare_swap]
    | some n => rw [order_of_integers ha hb, order_of_integers hb ha, Int.compare_swap]

theorem place_le_of_order {a b : Number} (h : a.order b ≠ .gt) : a.place ≤ b.place := by
  cases ha : a.integer? with
  | none => rwa [order_of_not_integers (.inl ha), compare_le_iff_le] at h
  | some m =>
    cases hb : b.integer? with
    | none => rwa [order_of_not_integers (.inr hb), compare_le_iff_le] at h
    | some n =>
      rw [order_of_integers ha hb, compare_le_iff_le] at h
      rw [place_of_integer ha, place_of_integer hb]
      exact Binary64.key_ofInt_mono h

/-- A real between two integers of which the first is the greater, with both rounded onto it. -/
def Bridged (a b c : Number) : Prop :=
  ∃ m ∈ a.integer?, ∃ x ∈ b.real?, ∃ n ∈ c.integer?, n < m ∧ x.isNaN = false ∧
    (Binary64.ofInt m).scaled = x.scaled ∧ (Binary64.ofInt n).scaled = x.scaled

instance (a b c : Number) : Decidable (Bridged a b c) :=
  inferInstanceAs (Decidable (∃ m ∈ a.integer?, _))

/-- An integer and a real onto which it is rounded, in either place. -/
def Blurred (a b : Number) : Prop :=
  (∃ n ∈ a.integer?, ∃ x ∈ b.real?, RoundsOnto n x) ∨
    ∃ n ∈ b.integer?, ∃ x ∈ a.real?, RoundsOnto n x

instance (a b : Number) : Decidable (Blurred a b) := inferInstanceAs (Decidable (_ ∨ _))

/-- The places never go back along the order, so only two integers out of order can break it, and
those must share their place with what stands between them. -/
theorem order_trans {a b c : Number} (hBridge : ¬ Bridged a b c) (hab : a.order b ≠ .gt)
    (hbc : b.order c ≠ .gt) : a.order c ≠ .gt := by
  have hFirst := place_le_of_order hab
  have hSecond := place_le_of_order hbc
  cases ha : a.integer? with
  | none =>
    rw [order_of_not_integers (.inl ha), compare_le_iff_le]
    exact hFirst.trans hSecond
  | some m =>
  cases hc : c.integer? with
  | none =>
    rw [order_of_not_integers (.inr hc), compare_le_iff_le]
    exact hFirst.trans hSecond
  | some n =>
  rw [order_of_integers ha hc, compare_le_iff_le]
  cases hb : b.integer? with
  | some k =>
    rw [order_of_integers ha hb, compare_le_iff_le] at hab
    rw [order_of_integers hb hc, compare_le_iff_le] at hbc
    exact hab.trans hbc
  | none =>
    obtain ⟨x, rfl⟩ := eq_real_of_integer?_eq_none hb
    by_contra hGreater
    rw [Int.not_le] at hGreater
    have hBack := Binary64.key_ofInt_mono hGreater.le
    rw [place_of_integer ha] at hFirst
    rw [place_of_integer hc] at hSecond
    have hPlaces : x.place = (Binary64.ofInt m).place := by
      rw [Binary64.place_of_not_isNaN (Binary64.isNaN_ofInt m)]
      exact Int.le_antisymm (hSecond.trans hBack) hFirst
    have hNaN := Binary64.isNaN_eq_false_of_place_eq hPlaces (Binary64.isNaN_ofInt m)
    change _ ≤ x.place at hFirst
    change x.place ≤ _ at hSecond
    rw [Binary64.place_of_not_isNaN hNaN] at hFirst hSecond
    refine hBridge ⟨m, ha, x, rfl, n, hc, hGreater, hNaN, ?_, ?_⟩
    · rw [Binary64.scaled_eq_scaled_iff]
      omega
    · rw [Binary64.scaled_eq_scaled_iff]
      omega

theorem not_trans_of_bridged {a b c : Number} (h : Bridged a b c) :
    a.order b = .eq ∧ b.order c = .eq ∧ a.order c = .gt := by
  obtain ⟨m, ha, x, hb, n, hc, hGreater, hNaN, hFirst, hSecond⟩ := h
  obtain rfl : b = real x := by
    cases b <;> cases hb
    rfl
  rw [Binary64.scaled_eq_scaled_iff] at hFirst hSecond
  refine ⟨?_, ?_, ?_⟩
  · rw [order_of_not_integers (.inr rfl), place_of_integer ha, hFirst, compare_eq_iff_eq]
    exact (Binary64.place_of_not_isNaN hNaN).symm
  · rw [order_of_not_integers (.inl rfl), place_of_integer hc, hSecond, compare_eq_iff_eq]
    exact Binary64.place_of_not_isNaN hNaN
  · rw [order_of_integers ha hc, compare_gt_iff_gt]
    exact hGreater

theorem scaled_of_integer {a : Number} {n : Int} (h : a.integer? = some n) :
    a.scaled = scaledInteger n := by
  cases a with
  | int m => cases h; rfl
  | nat m => cases h; rfl
  | real x => cases h

theorem compare_scaledInteger (m n : Int) :
    compare (scaledInteger m) (scaledInteger n) = compare m n := by
  have hUnit : (0 : Int) < 2 ^ 1074 := Int.pow_pos (by decide)
  rcases lt_trichotomy m n with h | rfl | h
  · rw [compare_lt_iff_lt.mpr h, compare_lt_iff_lt]
    exact Int.mul_lt_mul_of_pos_right h hUnit
  · rw [compare_eq_iff_eq.mpr rfl, compare_eq_iff_eq.mpr rfl]
  · rw [compare_gt_iff_gt.mpr h, compare_gt_iff_gt]
    exact Int.mul_lt_mul_of_pos_right h hUnit

theorem blurred_comm {a b : Number} : Blurred a b ↔ Blurred b a := Or.comm

theorem not_blurred_of_integers {a b : Number} {m n : Int} (ha : a.integer? = some m)
    (hb : b.integer? = some n) : ¬ Blurred a b := by
  rintro (⟨-, -, x, hx, -⟩ | ⟨-, -, x, hx, -⟩)
  · cases b <;> cases hx
    cases hb
  · cases a <;> cases hx
    cases ha

theorem not_blurred_real (x y : Binary64) : ¬ Blurred (real x) (real y) := by
  rintro (⟨n, hn, -⟩ | ⟨n, hn, -⟩) <;> cases hn

theorem blurred_real_iff {a : Number} {n : Int} (ha : a.integer? = some n) {x : Binary64} :
    Blurred a (real x) ↔ RoundsOnto n x := by
  constructor
  · rintro (⟨m, hm, y, hy, hRounds⟩ | ⟨m, hm, -⟩)
    · cases ha.symm.trans hm
      cases hy
      exact hRounds
    · cases hm
  · intro h
    exact .inl ⟨n, ha, x, rfl, h⟩

theorem order_real_eq_compare_scaled_iff {a : Number} {n : Int} (ha : a.integer? = some n)
    {x : Binary64} (hx : x.isNaN = false) :
    a.order (real x) = compare a.scaled (real x).scaled ↔ ¬ Blurred a (real x) := by
  rw [order_of_compare? (compare?_real_of_integer ha (toReal_of_integer ha) hx),
    blurred_real_iff ha, scaled_of_integer ha]
  change _ = compare (scaledInteger n) x.scaled ↔ _
  split
  · rename_i h
    have hApart : compare (scaledInteger n) x.scaled ≠ .eq := fun hEq =>
      h.2 (compare_eq_iff_eq.mp hEq)
    exact iff_of_false hApart.symm (not_not_intro h)
  · rename_i h
    exact iff_of_true rfl h

/-- Rounding changes the order of two numbers exactly when it makes different ones equal. -/
theorem order_eq_compare_scaled_iff {a b : Number} (ha : a.isNaN = false) (hb : b.isNaN = false) :
    a.order b = compare a.scaled b.scaled ↔ ¬ Blurred a b := by
  cases hm : a.integer? with
  | some m =>
    cases hn : b.integer? with
    | some n =>
      rw [order_of_integers hm hn, scaled_of_integer hm, scaled_of_integer hn,
        compare_scaledInteger]
      exact iff_of_true rfl (not_blurred_of_integers hm hn)
    | none =>
      obtain ⟨y, rfl⟩ := eq_real_of_integer?_eq_none hn
      exact order_real_eq_compare_scaled_iff hm hb
  | none =>
    obtain ⟨x, rfl⟩ := eq_real_of_integer?_eq_none hm
    cases hn : b.integer? with
    | some n =>
      rw [order_swap b, ← Int.compare_swap b.scaled, Ordering.swap_inj, blurred_comm]
      exact order_real_eq_compare_scaled_iff hn ha
    | none =>
      obtain ⟨y, rfl⟩ := eq_real_of_integer?_eq_none hn
      refine iff_of_true ?_ (not_blurred_real x y)
      rw [order_of_not_integers (.inl rfl)]
      change compare x.place y.place = compare x.scaled y.scaled
      rw [Binary64.compare_scaled, ← Binary64.place_of_not_isNaN (x := x) ha,
        ← Binary64.place_of_not_isNaN (x := y) hb]

theorem order_of_isNaN {a b : Number} (ha : a.isNaN = true) (hb : b.isNaN = false) :
    a.order b = if a.toReal.isNegative then .lt else .gt := by
  have hReal : a.integer? = none := by
    cases h : a.integer? with
    | none => rfl
    | some n =>
      rw [isNaN, toReal_of_integer h, Binary64.isNaN_ofInt] at ha
      cases ha
  obtain ⟨⟨hLow, hHigh⟩, -⟩ := Binary64.keys_bounded hb
  rw [order_of_not_integers (.inl hReal), place, place, Binary64.place_of_isNaN ha,
    Binary64.place_of_not_isNaN hb, Binary64.compare_wordKey_of_isNaN ha (by omega) hHigh]

/-- How far the order sorts: turned around it is reversed, it is transitive on three numbers unless
the middle one bridges the outer ones, it is the order of exact values unless a number is blurred,
and a NaN comes after all other numbers unless its sign puts it before them. -/
theorem order_exact_except_where_rounded (a b c : Number) :
    b.order a = (a.order b).swap ∧
      ((a.order b ≠ .gt → b.order c ≠ .gt → a.order c ≠ .gt) ↔ ¬ Bridged a b c) ∧
      (a.isNaN = false → b.isNaN = false →
        (a.order b = compare a.scaled b.scaled ↔ ¬ Blurred a b)) ∧
      (a.isNaN = true → b.isNaN = false →
        (a.order b = .gt ↔ a.toReal.isNegative = false)) := by
  refine ⟨order_swap a b, ⟨?_, order_trans⟩, order_eq_compare_scaled_iff, ?_⟩
  · intro hTrans hBridged
    obtain ⟨hFirst, hSecond, hGreater⟩ := not_trans_of_bridged hBridged
    exact hTrans (by simp [hFirst]) (by simp [hSecond]) hGreater
  · intro ha hb
    rw [order_of_isNaN ha hb]
    cases a.toReal.isNegative <;> decide

/-- `2 ^ 53 + 1` and `2 ^ 53` are bridged by the real `2 ^ 53`; a NaN with the sign bit comes first. -/
theorem order_around_two_pow_53 :
    let m := int 9007199254740993
    let x := real ⟨0x4340000000000000⟩
    let n := int 9007199254740992
    ¬ (m.order x ≠ .gt → x.order n ≠ .gt → m.order n ≠ .gt) ∧
      ¬ m.order x = compare m.scaled x.scaled ∧
      ¬ (real ⟨0xfff8000000000000⟩).order m = .gt := by
  intro m x n
  have hBridged : Bridged m x n := by decide +kernel
  have hBlurred : Blurred m x := by decide +kernel
  obtain ⟨-, hTrans, hValue, -⟩ := order_exact_except_where_rounded m x n
  obtain ⟨-, -, -, hNaN⟩ := order_exact_except_where_rounded (real ⟨0xfff8000000000000⟩) m n
  refine ⟨fun h => hTrans.mp h hBridged, fun h => (hValue ?_ ?_).mp h hBlurred, fun h => ?_⟩
  · decide +kernel
  · decide +kernel
  · exact absurd ((hNaN (by decide +kernel) (by decide +kernel)).mp h) (by decide +kernel)

theorem order_not_transitive_at_two_pow_53 :
    (int 9007199254740993).order (real ⟨0x4340000000000000⟩) = .eq ∧
      (real ⟨0x4340000000000000⟩).order (int 9007199254740992) = .eq ∧
      (int 9007199254740993).order (int 9007199254740992) = .gt := by
  decide +kernel

end Number

end RecordFilter
