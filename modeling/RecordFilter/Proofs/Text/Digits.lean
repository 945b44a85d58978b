import RecordFilter.Text.Digits

/-!
# Digits of a number

Digits go on up to a character that is no digit. The decimal digits of a number are read as that
number, and only zero has a zero in front. Zeros put in front do not change what is read, and any
digits are those of one number behind zeros.
-/

namespace RecordFilter.Text

/-- The text does not go on with a digit. -/
def EndsDigits (rest : List Char) : Prop := ∀ c ∈ rest.head?, c.isDigit = false

theorem endsDigits_nil : EndsDigits [] := nofun

theorem endsDigits_cons {c : Char} (h : c.isDigit = false) (cs : List Char) :
    EndsDigits (c :: cs) := by
  rintro d ⟨⟩
  exact h

theorem EndsDigits.take {rest : List Char} (h : EndsDigits rest) (n : Nat) :
    EndsDigits (rest.take n) := by
  cases n with
  | zero => exact endsDigits_nil
  | succ n =>
    cases rest with
    | nil => exact endsDigits_nil
    | cons c cs => exact endsDigits_cons (h c rfl) _

theorem takeWhile_isDigit_append {ds rest : List Char} (h : ∀ c ∈ ds, c.isDigit = true)
    (hRest : EndsDigits rest) : (ds ++ rest).takeWhile Char.isDigit = ds := by
  rw [List.takeWhile_append_of_pos h]
  cases rest with
  | nil => exact List.append_nil ds
  | cons c cs =>
    rw [List.takeWhile_cons, hRest c rfl]
    exact List.append_nil ds

theorem spanDigits_append_eq {ds rest : List Char} (h : ∀ c ∈ ds, c.isDigit = true)
    (hRest : EndsDigits rest) : spanDigits (ds ++ rest) = (ds, rest) := by
  have hAll := spanDigits_append (ds ++ rest)
  rw [spanDigits, takeWhile_isDigit_append h hRest] at hAll ⊢
  exact Prod.ext rfl (List.append_cancel_left hAll)

theorem isDigit_of_mem_toDigits {n : Nat} : ∀ c ∈ Nat.toDigits 10 n, c.isDigit = true :=
  fun _ hc => Nat.isDigit_of_mem_toDigits (by decide) (by decide) hc

theorem digitsValue_toDigits (n : Nat) : digitsValue (Nat.toDigits 10 n) = n :=
  Nat.ofDigitChars_ten_toDigits

theorem digitsValue_append (ds ds' : List Char) :
    digitsValue (ds ++ ds') = 10 ^ ds'.length * digitsValue ds + digitsValue ds' := by
  rw [digitsValue, List.foldl_append]
  exact Nat.ofDigitChars_eq_ofDigitChars_zero

theorem digitsValue_cons (d : Char) (ds : List Char) :
    digitsValue (d :: ds) = 10 ^ ds.length * digitsValue [d] + digitsValue ds :=
  digitsValue_append [d] ds

theorem digitsValue_lt {ds : List Char} (h : ∀ c ∈ ds, c.isDigit = true) :
    digitsValue ds < 10 ^ ds.length := by
  induction ds with
  | nil => exact Nat.one_pos
  | cons d ds ih =>
    have hRest := ih fun c hc => h c (List.mem_cons_of_mem d hc)
    have hDigit : 48 ≤ d.toNat ∧ d.toNat ≤ 57 := Char.isDigit_iff_toNat.mp (h d List.mem_cons_self)
    have hValue : digitsValue [d] ≤ 9 := by
      change 10 * 0 + (d.toNat - 48) ≤ 9
      omega
    have hFirst := Nat.mul_le_mul_left (10 ^ ds.length) hValue
    rw [digitsValue_cons, List.length_cons, Nat.pow_succ]
    omega

theorem digitsValue_append_div (ds : List Char) {ds' : List Char}
    (h : ∀ c ∈ ds', c.isDigit = true) :
    digitsValue (ds ++ ds') / 10 ^ ds'.length = digitsValue ds := by
  rw [digitsValue_append, Nat.mul_add_div (Nat.pow_pos (by decide)),
    Nat.div_eq_of_lt (digitsValue_lt h), Nat.add_zero]

theorem exists_toDigits_eq_cons (n : Nat) : ∃ c cs, Nat.toDigits 10 n = c :: cs ∧
    c.isDigit = true := by
  obtain ⟨c, cs, hDigits⟩ := List.exists_cons_of_ne_nil (@Nat.toDigits_ne_nil n 10)
  exact ⟨c, cs, hDigits, isDigit_of_mem_toDigits c (hDigits ▸ List.mem_cons_self)⟩

theorem eq_zero_of_toDigits_eq_cons {n : Nat} {cs : List Char}
    (h : Nat.toDigits 10 n = '0' :: cs) : n = 0 := by
  induction n using Nat.strongRecOn generalizing cs with
  | ind n ih =>
    by_cases hSmall : n < 10
    · rw [Nat.toDigits_of_lt_base hSmall] at h
      exact Nat.digitChar_eq_zero.mp (List.cons.inj h).1
    · rw [Nat.toDigits_of_base_le (by decide) (Nat.le_of_not_lt hSmall)] at h
      obtain ⟨c, ds, hDigits, -⟩ := exists_toDigits_eq_cons (n / 10)
      rw [hDigits, List.cons_append] at h
      have hZero := ih (n / 10) (by omega) ((List.cons.inj h).1 ▸ hDigits)
      omega

theorem toDigits_digitsValue_singleton {d : Char} (h : d.isDigit = true) :
    Nat.toDigits 10 (digitsValue [d]) = [d] := by
  have hRange : 48 ≤ d.toNat ∧ d.toNat ≤ 57 := Char.isDigit_iff_toNat.mp h
  have hValue : digitsValue [d] = d.toNat - 48 := by
    change 10 * 0 + (d.toNat - 48) = d.toNat - 48
    omega
  have hSmall : digitsValue [d] < 10 := by omega
  rw [Nat.toDigits_of_lt_base hSmall, List.cons.injEq, ← Char.toNat_inj,
    Nat.toNat_digitChar_of_lt_ten hSmall]
  exact ⟨by omega, rfl⟩

/-- Digits behind those of a number that is not zero belong to the digits of one number. -/
theorem toDigits_append {n : Nat} (hn : 0 < n) {ds : List Char}
    (h : ∀ c ∈ ds, c.isDigit = true) :
    Nat.toDigits 10 n ++ ds = Nat.toDigits 10 (10 ^ ds.length * n + digitsValue ds) := by
  induction ds generalizing n with
  | nil => rw [List.append_nil, List.length_nil, Nat.pow_zero, Nat.one_mul, digitsValue_nil,
      Nat.add_zero]
  | cons d ds ih =>
    have hd : d.isDigit = true := h d List.mem_cons_self
    have hSingle := toDigits_digitsValue_singleton hd
    have hSmall : digitsValue [d] < 10 :=
      digitsValue_lt (List.forall_mem_singleton.mpr hd)
    have hNext : Nat.toDigits 10 n ++ [d] = Nat.toDigits 10 (10 * n + digitsValue [d]) := by
      rw [← Nat.toDigits_append_toDigits (by decide) hn hSmall, hSingle]
    calc
      Nat.toDigits 10 n ++ d :: ds = Nat.toDigits 10 n ++ [d] ++ ds := by
        rw [List.append_assoc, List.singleton_append]
      _ = Nat.toDigits 10 (10 ^ ds.length * (10 * n + digitsValue [d]) + digitsValue ds) := by
        rw [hNext, ih (by omega) fun c hc => h c (List.mem_cons_of_mem d hc)]
      _ = Nat.toDigits 10 (10 ^ (d :: ds).length * n + digitsValue (d :: ds)) := by
        rw [digitsValue_cons d ds, List.length_cons, Nat.pow_succ, Nat.mul_add, Nat.mul_assoc,
          Nat.add_assoc]

/-- The decimal digits of a number behind zeros. -/
def decimal (zeros n : Nat) : List Char := List.replicate zeros '0' ++ Nat.toDigits 10 n

theorem isDigit_of_mem_decimal {zeros n : Nat} {c : Char} (h : c ∈ decimal zeros n) :
    c.isDigit = true := by
  rcases List.mem_append.mp h with hZero | hDigit
  · rw [List.eq_of_mem_replicate hZero]
    rfl
  · exact isDigit_of_mem_toDigits c hDigit

theorem decimal_ne_nil (zeros n : Nat) : decimal zeros n ≠ [] :=
  List.append_ne_nil_of_right_ne_nil _ Nat.toDigits_ne_nil

theorem exists_decimal_eq_cons (zeros n : Nat) : ∃ c cs, decimal zeros n = c :: cs ∧
    c.isDigit = true := by
  obtain ⟨c, cs, hDecimal⟩ := List.exists_cons_of_ne_nil (decimal_ne_nil zeros n)
  exact ⟨c, cs, hDecimal, isDigit_of_mem_decimal (hDecimal ▸ List.mem_cons_self)⟩

theorem digitsValue_decimal (zeros n : Nat) : digitsValue (decimal zeros n) = n := by
  have hZeros : digitsValue (List.replicate zeros '0') = 0 := by
    induction zeros with
    | zero => rfl
    | succ zeros ih =>
      rw [List.replicate_succ, digitsValue_cons, ih]
      rfl
  rw [decimal, digitsValue_append, hZeros, Nat.mul_zero, Nat.zero_add, digitsValue_toDigits]

theorem exists_eq_decimal {ds : List Char} (hNonempty : ds ≠ [])
    (h : ∀ c ∈ ds, c.isDigit = true) : ∃ zeros, ds = decimal zeros (digitsValue ds) := by
  induction ds with
  | nil => exact absurd rfl hNonempty
  | cons d ds ih =>
    have hd : d.isDigit = true := h d List.mem_cons_self
    have hRest : ∀ c ∈ ds, c.isDigit = true := fun c hc => h c (List.mem_cons_of_mem d hc)
    have hSingle := toDigits_digitsValue_singleton hd
    have hValue := digitsValue_cons d ds
    rcases Nat.eq_zero_or_pos (digitsValue [d]) with hZero | hPos
    · -- A zero in front is one more of the zeros, unless it is the number itself.
      have hFirst : d = '0' := by
        rw [hZero] at hSingle
        exact (List.cons.inj hSingle).1.symm
      rw [hZero, Nat.mul_zero, Nat.zero_add] at hValue
      rw [hValue]
      cases ds with
      | nil => exact ⟨0, congrArg (fun c => [c]) hFirst⟩
      | cons e es =>
        obtain ⟨zeros, hZeros⟩ := ih (List.cons_ne_nil e es) hRest
        exact ⟨zeros + 1, by rw [hFirst, decimal, List.replicate_succ, List.cons_append,
          ← decimal, ← hZeros]⟩
    · refine ⟨0, ?_⟩
      rw [hValue, decimal, ← toDigits_append hPos hRest, hSingle]
      rfl

theorem readNat?_eq_some_iff {cs : List Char} {n : Nat} :
    readNat? cs = some n ↔ ∃ zeros, cs = decimal zeros n := by
  constructor
  · intro h
    obtain ⟨hDigits, hValue⟩ := Option.ite_none_left_eq_some.mp h
    simp only [Bool.or_eq_true, List.isEmpty_iff, Bool.not_eq_true', not_or,
      Bool.not_eq_false, List.all_eq_true] at hDigits
    obtain ⟨zeros, hZeros⟩ := exists_eq_decimal hDigits.1 hDigits.2
    exact ⟨zeros, by rwa [Option.some.inj hValue] at hZeros⟩
  · rintro ⟨zeros, rfl⟩
    have hAll : (decimal zeros n).all Char.isDigit = true :=
      List.all_eq_true.mpr fun _ => isDigit_of_mem_decimal
    have hEmpty : (decimal zeros n).isEmpty = false := by
      simpa using decimal_ne_nil zeros n
    rw [readNat?, hAll, hEmpty, digitsValue_decimal]
    rfl

end RecordFilter.Text
