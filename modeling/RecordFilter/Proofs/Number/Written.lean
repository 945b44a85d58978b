import RecordFilter.Proofs.Binary64.Rounding
import RecordFilter.Proofs.Condition.Compile
import RecordFilter.Proofs.Text.Blank
import RecordFilter.Proofs.Text.Digits
import RecordFilter.Proofs.Text.Fold

/-!
# Integers as text

An integer may be written with a sign, with zeros in front of its digits and between blanks. Within
64 bits it is read as it is, however it is written; beyond them it is rounded to the nearest real,
which is refused unless it is finite. No other text is read as an integer.
-/

namespace RecordFilter

namespace Text

/-- An integer in decimal: its digits with zeros in front, and a sign that only a minus needs. A
zero may have either sign. -/
inductive WritesInteger : Int → List Char → Prop where
  | plain (zeros n : Nat) : WritesInteger n (decimal zeros n)
  | plus (zeros n : Nat) : WritesInteger n ('+' :: decimal zeros n)
  | minus (zeros n : Nat) : WritesInteger (-n) ('-' :: decimal zeros n)

/-- The text is the integer in decimal, with or without blanks around it. -/
def IsInteger (s : String) (n : Int) : Prop :=
  ∃ before body after, (∀ c ∈ before, isBlank c = true) ∧ (∀ c ∈ after, isBlank c = true) ∧
    WritesInteger n body ∧ s.toList = before ++ body ++ after

theorem readUnsigned?_of_isDigit {c : Char} (h : c.isDigit = true) (cs : List Char) :
    readUnsigned? (c :: cs) = readNat? (c :: cs) := by
  unfold readUnsigned?
  split
  · rename_i hPlus
    cases hPlus
    cases h
  · rfl

theorem readSigned?_minus (cs : List Char) :
    readSigned? ('-' :: cs) = (readNat? cs).map fun n : Nat => -(n : Int) := by
  change ((readNat? cs).bind fun n => some (n : Int)).map (fun n => -n) = _
  cases readNat? cs <;> rfl

theorem readSigned?_of_isDigit {c : Char} (h : c.isDigit = true) (cs : List Char) :
    readSigned? (c :: cs) = (readNat? (c :: cs)).map Int.ofNat := by
  unfold readSigned?
  split
  · rename_i hMinus
    cases hMinus
    cases h
  · rw [readUnsigned?_of_isDigit h]

theorem readSigned?_eq_some_iff {cs : List Char} {n : Int} :
    readSigned? cs = some n ↔ WritesInteger n cs := by
  constructor
  · intro h
    unfold readSigned? at h
    split at h
    · rename_i cs
      obtain ⟨k, hk, rfl⟩ := Option.map_eq_some_iff.mp ((readSigned?_minus cs).symm.trans h)
      obtain ⟨zeros, rfl⟩ := readNat?_eq_some_iff.mp hk
      exact .minus zeros k
    · obtain ⟨k, hk, rfl⟩ := Option.map_eq_some_iff.mp h
      unfold readUnsigned? at hk
      split at hk
      · obtain ⟨zeros, rfl⟩ := readNat?_eq_some_iff.mp hk
        exact .plus zeros k
      · obtain ⟨zeros, rfl⟩ := readNat?_eq_some_iff.mp hk
        exact .plain zeros k
  · have hRead (zeros k : Nat) : readNat? (decimal zeros k) = some k :=
      readNat?_eq_some_iff.mpr ⟨zeros, rfl⟩
    intro h
    cases h with
    | plain zeros k =>
      have hDigits := hRead zeros k
      obtain ⟨c, cs, hDecimal, hFirst⟩ := exists_decimal_eq_cons zeros k
      rw [hDecimal] at hDigits ⊢
      rw [readSigned?_of_isDigit hFirst, hDigits]
      rfl
    | plus zeros k => exact congrArg (Option.map Int.ofNat) (hRead zeros k)
    | minus zeros k =>
      rw [readSigned?_minus, hRead]
      rfl

theorem WritesInteger.isBlank_eq_false {n : Int} {cs : List Char} (h : WritesInteger n cs) :
    ∀ c ∈ cs, isBlank c = false := by
  have hDigits (zeros k : Nat) : ∀ c ∈ decimal zeros k, isBlank c = false :=
    fun c hc => isBlank_of_isDigit (isDigit_of_mem_decimal hc)
  cases h with
  | plain zeros k => exact hDigits zeros k
  | plus zeros k => exact List.forall_mem_cons.mpr ⟨rfl, hDigits zeros k⟩
  | minus zeros k => exact List.forall_mem_cons.mpr ⟨rfl, hDigits zeros k⟩

theorem WritesInteger.ne_nil {n : Int} {cs : List Char} (h : WritesInteger n cs) : cs ≠ [] := by
  cases h with
  | plain zeros k => exact decimal_ne_nil zeros k
  | plus | minus => exact List.cons_ne_nil _ _

theorem isInteger_iff {s : String} {n : Int} :
    IsInteger s n ↔ WritesInteger n (trim s.toList) := by
  constructor
  · rintro ⟨before, body, after, hBefore, hAfter, hBody, hText⟩
    rw [hText, trim_between_blanks_of_ne_nil hBefore hAfter hBody.ne_nil hBody.isBlank_eq_false]
    exact hBody
  · intro h
    obtain ⟨before, after, hBefore, hAfter, hText⟩ := exists_blanks_trim s.toList
    exact ⟨before, _, after, hBefore, hAfter, h, hText⟩

instance (s : String) (n : Int) : Decidable (IsInteger s n) :=
  decidable_of_iff (readSigned? (trim s.toList) = some n)
    (readSigned?_eq_some_iff.trans isInteger_iff.symm)

end Text

namespace Binary64

open Text

theorem roundRatio_eq_infinityMagnitude {d k n : Nat}
    (hk : (k + 1074) * 2 ^ 52 + 2 ^ 52 = infinityMagnitude) (hd : 52 + k ≤ 3 * d)
    (h : 10 ^ d ≤ n) : roundRatio n 1 = infinityMagnitude := by
  have hPower : 2 ^ (52 + k) ≤ n :=
    calc
      2 ^ (52 + k) ≤ 2 ^ (3 * d) := Nat.pow_le_pow_right (by decide) hd
      _ = (2 ^ 3) ^ d := Nat.pow_mul ..
      _ ≤ 10 ^ d := Nat.pow_le_pow_left (by decide) d
      _ ≤ n := h
  refine Nat.le_antisymm (roundRatio_le n 1) (le_roundRatio Nat.one_pos (Nat.le_refl _) ?_)
  rw [← hk, scaledMagnitude_two_pow, Nat.mul_one]
  exact Nat.mul_le_mul_right _ hPower

/-- Up to 400 digits are scaled exactly, and more of them stand for a number beyond all reals. -/
theorem ofDecimal_zero {n : Nat} (hn : n ≠ 0) : ofDecimal n 0 = roundRatio n 1 := by
  have hLength := Nat.length_toDigits_le_iff (b := 10) (n := n) (k := 400) (by decide) (by decide)
  simp only [ofDecimal, if_neg hn, Int.zero_add]
  split
  · rename_i hLong
    have hLarge : 10 ^ 400 ≤ n := by
      rcases Nat.lt_or_ge n (10 ^ 400) with hSmall | hLarge
      · have hShort := hLength.mpr hSmall
        omega
      · exact hLarge
    exact (roundRatio_eq_infinityMagnitude (k := 972) (by decide) (by decide) hLarge).symm
  · rw [if_neg (by omega), if_pos (Int.le_refl 0), Int.toNat_zero, Nat.pow_zero, Nat.mul_one]

theorem readMagnitude?_of_isDigit {c : Char} (h : c.isDigit = true) (cs : List Char) :
    readMagnitude? (c :: cs) = readDecimal? (c :: cs) := by
  have hWord {w : String} {d : Char} {ds : List Char} (hw : w.toList = d :: ds)
      (hd : d.isDigit = false) : String.ofList ((c :: cs).map Char.toLower) ≠ w := by
    rintro rfl
    rw [String.toList_ofList, List.map_cons, List.cons.injEq, toLower_of_isDigit h] at hw
    rw [← hw.1, h] at hd
    cases hd
  have hInf : String.ofList ((c :: cs).map Char.toLower) ≠ "inf" := hWord rfl rfl
  have hInfinity : String.ofList ((c :: cs).map Char.toLower) ≠ "infinity" := hWord rfl rfl
  have hNaN : String.ofList ((c :: cs).map Char.toLower) ≠ "nan" := hWord rfl rfl
  simp only [readMagnitude?, hInf, hInfinity, hNaN, decide_false, Bool.or_self,
    Bool.false_eq_true, if_false]

theorem readDecimal?_decimal (zeros : Nat) {n : Nat} (hn : n ≠ 0) :
    readDecimal? (decimal zeros n) = some (roundRatio n 1) := by
  have hSpan : spanDigits (decimal zeros n) = (decimal zeros n, []) := by
    have hDigits : ∀ c ∈ decimal zeros n, c.isDigit = true := fun _ => isDigit_of_mem_decimal
    have h := spanDigits_append_eq hDigits endsDigits_nil
    rwa [List.append_nil] at h
  have hNonempty : (decimal zeros n).isEmpty = false := by
    simpa using decimal_ne_nil zeros n
  simp only [readDecimal?, hSpan, hNonempty, Bool.false_and, Bool.false_eq_true, if_false,
    List.append_nil, digitsValue_decimal]
  exact congrArg some (ofDecimal_zero hn)

theorem readMagnitude?_decimal (zeros : Nat) {n : Nat} (hn : n ≠ 0) :
    readMagnitude? (decimal zeros n) = some (roundRatio n 1) := by
  have hRead := readDecimal?_decimal zeros hn
  obtain ⟨c, cs, hDecimal, hFirst⟩ := exists_decimal_eq_cons zeros n
  rw [hDecimal] at hRead ⊢
  rw [readMagnitude?_of_isDigit hFirst, hRead]

theorem read?_of_isDigit {c : Char} (h : c.isDigit = true) (cs : List Char) :
    read? (c :: cs) = (readMagnitude? (c :: cs)).map (ofMagnitude false) := by
  unfold read?
  split
  · rename_i hMinus
    cases hMinus
    cases h
  · rename_i hPlus
    cases hPlus
    cases h
  · rfl

theorem read?_of_writesInteger {n : Int} (hn : n ≠ 0) {cs : List Char} (h : WritesInteger n cs) :
    read? cs = some (ofInt n) := by
  have hNonneg (k : Nat) : ofInt k = ofMagnitude false (roundRatio k 1) := by
    rw [ofInt, Int.natAbs_natCast, decide_eq_false (by omega)]
  cases h with
  | plain zeros k =>
    have hRead := readMagnitude?_decimal zeros (n := k) (by omega)
    obtain ⟨c, cs, hDecimal, hFirst⟩ := exists_decimal_eq_cons zeros k
    rw [hDecimal] at hRead ⊢
    rw [read?_of_isDigit hFirst, hRead, hNonneg]
    rfl
  | plus zeros k =>
    rw [read?, readMagnitude?_decimal zeros (by omega), hNonneg]
    rfl
  | minus zeros k =>
    rw [read?, readMagnitude?_decimal zeros (by omega), ofInt, Int.natAbs_neg,
      Int.natAbs_natCast, decide_eq_true (by omega)]
    rfl

end Binary64

namespace Scalar

open Text

variable {s : String} {n : Int} {a : Number}

theorem readNumberText_of_some (hText : IsInteger s n) (h : Number.ofInteger? n = some a) :
    readNumberText s = .ok a := by
  have hRead := readSigned?_eq_some_iff.mpr (isInteger_iff.mp hText)
  simp only [readNumberText, hRead, Option.bind_some, h]

theorem readNumberText_of_none (hText : IsInteger s n) (h : Number.ofInteger? n = none) :
    readNumberText s = .ok (.real (.ofInt n)) := by
  have hWrites := isInteger_iff.mp hText
  have hRead := readSigned?_eq_some_iff.mpr hWrites
  have hNonzero : n ≠ 0 := by
    have hRange := Number.ofInteger?_eq_none_iff.mp h
    omega
  simp only [readNumberText, hRead, Option.bind_some, h,
    Binary64.read?_of_writesInteger hNonzero hWrites]

theorem isInteger_of_readNumberText (h : readNumberText s = .ok a)
    (hInteger : a.integer? = some n) : IsInteger s n := by
  simp only [readNumberText] at h
  split at h
  · rename_i b hRead
    cases h
    obtain ⟨k, hWrites, hNumber⟩ := Option.bind_eq_some_iff.mp hRead
    have hSame := hInteger.symm.trans (Number.integer?_of_ofInteger? hNumber)
    rw [Option.some.inj hSame]
    exact isInteger_iff.mpr (readSigned?_eq_some_iff.mp hWrites)
  · split at h
    · cases h
      cases hInteger
    · cases h

/-- An integer of 64 bits is read exactly from every text of it, as from the integer itself. Beyond
64 bits the text gives the nearest real if that is finite, and no text of anything else gives an
integer. Whatever is read is finite, and truth values are refused. -/
theorem integer_texts_stay_exact (s : String) :
    (∀ n : Int64, (number (.int n)).readNumber = .ok (.int n) ∧
      (IsInteger s n.toInt → (text s).readNumber = .ok (.int n))) ∧
    (∀ n : UInt64, (number (.nat n)).readNumber = .ok (.nat n) ∧
      (IsInteger s n.toNat → 2 ^ 63 ≤ n.toNat → (text s).readNumber = .ok (.nat n))) ∧
    (∀ n, IsInteger s n → n < -2 ^ 63 ∨ 2 ^ 64 ≤ n → (text s).readNumber =
      if (Binary64.ofInt n).isFinite then .ok (.real (.ofInt n)) else .error .notFinite) ∧
    (∀ a n, (text s).readNumber = .ok a → a.integer? = some n → IsInteger s n) ∧
    (∀ v x, readNumber v = .ok (.real x) → x.isFinite = true) ∧
    ∀ b, (bool b).readNumber = .error .booleanForNumber := by
  refine ⟨fun n => ⟨rfl, fun hText => ?_⟩, fun n => ⟨rfl, fun hText hLarge => ?_⟩,
    fun n hText hRange => ?_, fun a n hRead hInteger => ?_,
    fun _ _ h => isFinite_of_readNumber h, fun _ => rfl⟩
  · rw [readNumber_text, readNumberText_of_some hText (Number.ofInteger?_toInt n)]
    rfl
  · rw [readNumber_text, readNumberText_of_some hText (Number.ofInteger?_toNat hLarge)]
    rfl
  · have hNone := Number.ofInteger?_eq_none_iff.mpr hRange
    rw [readNumber_text, readNumberText_of_none hText hNone]
    rfl
  · rw [readNumber_text] at hRead
    obtain ⟨b, hb, hChecked⟩ := bind_eq_ok.mp hRead
    obtain ⟨-, rfl⟩ := readNumber_number_eq_ok_iff.mp hChecked
    exact isInteger_of_readNumberText hb hInteger

/-- The first and the last integer of 64 bits, their neighbours beyond, and one with more digits than
any real has before its point. -/
theorem integer_texts_at_the_ends :
    (text "-09223372036854775808").readNumber = .ok (.int Int64.minValue) ∧
    (text "\u00a0+18446744073709551615\n").readNumber = .ok (.nat (.ofNat (2 ^ 64 - 1))) ∧
    (text "-9223372036854775809").readNumber = .ok (.real (.ofInt (-2 ^ 63 - 1))) ∧
    (text "18446744073709551616").readNumber = .ok (.real (.ofInt (2 ^ 64))) ∧
    (text (String.ofList ('1' :: List.replicate 309 '0'))).readNumber = .error .notFinite := by
  have hFirst := (integer_texts_stay_exact "-09223372036854775808").1 Int64.minValue
  have hLast := (integer_texts_stay_exact "\u00a0+18446744073709551615\n").2.1 (.ofNat (2 ^ 64 - 1))
  have hBelow := (integer_texts_stay_exact "-9223372036854775809").2.2.1 (-2 ^ 63 - 1)
  have hAbove := (integer_texts_stay_exact "18446744073709551616").2.2.1 (2 ^ 64)
  have hDigits : IsInteger (String.ofList ('1' :: List.replicate 309 '0')) (10 ^ 309) := by
    rw [isInteger_iff, String.toList_ofList]
    exact readSigned?_eq_some_iff.mp (by decide +kernel)
  have hLong := (integer_texts_stay_exact (String.ofList ('1' :: List.replicate 309 '0'))).2.2.1
    (10 ^ 309) hDigits
  refine ⟨hFirst.2 (by decide +kernel), hLast.2 (by decide +kernel) (by decide), ?_, ?_, ?_⟩
  · rw [hBelow (by decide +kernel) (by decide), if_pos (by decide +kernel)]
  · rw [hAbove (by decide +kernel) (by decide), if_pos (by decide +kernel)]
  · rw [hLong (by decide +kernel), if_neg (by decide +kernel)]

end Scalar

end RecordFilter
