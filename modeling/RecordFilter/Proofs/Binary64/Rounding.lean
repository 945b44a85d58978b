import RecordFilter.Binary64.Round
import RecordFilter.Proofs.Binary64.Order

/-!
# Rounding to binary64 is monotone

A ratio that lies on one side of a binary64 value is rounded to the same side of it or onto it.
Every integer up to `2 ^ 53` is a binary64 value, so rounding leaves it alone.
-/

namespace RecordFilter

theorem le_roundHalfEven {n d k : Nat} (hd : 0 < d) (h : k * d ≤ n) : k ≤ roundHalfEven n d := by
  have hk : k ≤ n / d := (Nat.le_div_iff_mul_le hd).mpr h
  rw [roundHalfEven]
  split
  · exact hk
  · exact Nat.le_succ_of_le hk

theorem roundHalfEven_le {n d k : Nat} (hd : 0 < d) (h : n ≤ k * d) : roundHalfEven n d ≤ k := by
  have hDivMod := Nat.div_add_mod n d
  have hMod := Nat.mod_lt n hd
  have hk : n / d ≤ k := Nat.div_le_of_le_mul (by rwa [Nat.mul_comm])
  rw [roundHalfEven]
  split
  · exact hk
  · rename_i hUp
    -- Rounding up leaves a remainder, so the quotient lies strictly below `k`.
    have hRest : n % d ≠ 0 := by
      intro h0
      simp [h0, hd] at hUp
    refine Nat.lt_of_le_of_ne hk ?_
    rintro rfl
    rw [Nat.mul_comm] at h
    omega

/-- Of two quotients with one whole part the greater has the greater remainder, so it is rounded up
whenever the smaller one is. -/
theorem roundHalfEven_mono {n k d : Nat} (h : n ≤ k) : roundHalfEven n d ≤ roundHalfEven k d := by
  have hQuotients : n / d ≤ k / d := Nat.div_le_div_right h
  rcases Nat.lt_or_eq_of_le hQuotients with hLt | hEq
  · have hUp : roundHalfEven n d ≤ n / d + 1 := by
      simp only [roundHalfEven]
      split <;> omega
    have hDown : k / d ≤ roundHalfEven k d := by
      simp only [roundHalfEven]
      split <;> omega
    omega
  · have hDivMod := Nat.div_add_mod n d
    have hDivMod' := Nat.div_add_mod k d
    rw [← hEq] at hDivMod'
    have hRests : n % d ≤ k % d := by omega
    simp only [roundHalfEven, ← hEq, Bool.or_eq_true, Bool.and_eq_true, decide_eq_true_eq,
      beq_iff_eq]
    split <;> split <;> omega

namespace Binary64

/-- The exponent of the last place of `p / q`, in units of `2 ^ -1074`. -/
def lastPlace (p q : Nat) : Nat := Nat.log2 (p * 2 ^ 1074 / q) - 52

def roundedSignificand (p q : Nat) : Nat := roundHalfEven (p * 2 ^ 1074) (q * 2 ^ lastPlace p q)

theorem roundRatio_eq (p q : Nat) :
    roundRatio p q =
      min (lastPlace p q * 2 ^ 52 + roundedSignificand p q) infinityMagnitude := rfl

theorem le_of_lastPlace_pos {p q : Nat} (hq : 0 < q) (h : 0 < lastPlace p q) :
    2 ^ 52 * (q * 2 ^ lastPlace p q) ≤ p * 2 ^ 1074 := by
  have hNonzero : p * 2 ^ 1074 / q ≠ 0 := by
    intro h0
    rw [lastPlace, h0] at h
    exact absurd h (by decide)
  have hLog := Nat.log2_self_le hNonzero
  have hExponent : Nat.log2 (p * 2 ^ 1074 / q) = 52 + lastPlace p q := by
    rw [lastPlace] at h ⊢
    omega
  rw [hExponent, Nat.pow_add, Nat.le_div_iff_mul_le hq] at hLog
  calc
    2 ^ 52 * (q * 2 ^ lastPlace p q) = 2 ^ 52 * 2 ^ lastPlace p q * q := by
      rw [Nat.mul_comm q, Nat.mul_assoc]
    _ ≤ p * 2 ^ 1074 := hLog

theorem lt_lastPlace {p q : Nat} (hq : 0 < q) :
    p * 2 ^ 1074 < 2 ^ 53 * (q * 2 ^ lastPlace p q) := by
  have hLog : p * 2 ^ 1074 / q < 2 ^ (Nat.log2 (p * 2 ^ 1074 / q) + 1) := Nat.lt_log2_self
  have hExponent : Nat.log2 (p * 2 ^ 1074 / q) + 1 ≤ 53 + lastPlace p q := by
    rw [lastPlace]
    omega
  have hPow := Nat.lt_of_lt_of_le hLog (Nat.pow_le_pow_right (by decide) hExponent)
  rw [Nat.div_lt_iff_lt_mul hq, Nat.pow_add] at hPow
  calc
    p * 2 ^ 1074 < 2 ^ 53 * 2 ^ lastPlace p q * q := hPow
    _ = 2 ^ 53 * (q * 2 ^ lastPlace p q) := by rw [Nat.mul_assoc, Nat.mul_comm q]

theorem roundedSignificand_le {p q : Nat} (hq : 0 < q) : roundedSignificand p q ≤ 2 ^ 53 :=
  roundHalfEven_le (Nat.mul_pos hq (Nat.two_pow_pos _)) (lt_lastPlace hq).le

theorem le_roundedSignificand {p q : Nat} (hq : 0 < q) (h : 0 < lastPlace p q) :
    2 ^ 52 ≤ roundedSignificand p q :=
  le_roundHalfEven (Nat.mul_pos hq (Nat.two_pow_pos _)) (le_of_lastPlace_pos hq h)

theorem scaledMagnitude_lastPlace {p q : Nat} (hq : 0 < q) :
    scaledMagnitude (lastPlace p q * 2 ^ 52 + roundedSignificand p q) =
      roundedSignificand p q * 2 ^ lastPlace p q := by
  rcases Nat.lt_or_ge (roundedSignificand p q) (2 ^ 52) with h | h
  · have hPlace : lastPlace p q = 0 := by
      rcases Nat.eq_zero_or_pos (lastPlace p q) with h0 | hPos
      · exact h0
      · exact absurd (le_roundedSignificand hq hPos) (Nat.not_le_of_lt h)
    rw [hPlace, Nat.zero_mul, Nat.zero_add, scaledMagnitude_of_lt h, Nat.pow_zero, Nat.mul_one]
  · exact scaledMagnitude_add h (roundedSignificand_le hq)

theorem dvd_scaledMagnitude_or_lt (m e : Nat) :
    2 ^ e ∣ scaledMagnitude m ∨ 0 < e ∧ scaledMagnitude m < 2 ^ 52 * 2 ^ e := by
  rcases Nat.eq_zero_or_pos e with rfl | he
  · exact .inl (Nat.one_dvd _)
  rcases Nat.lt_or_ge m (2 ^ 52) with h | h
  · rw [scaledMagnitude_of_lt h]
    exact .inr ⟨he, Nat.lt_of_lt_of_le h (Nat.le_mul_of_pos_right _ (Nat.two_pow_pos e))⟩
  · obtain ⟨e', q, hLow, hHigh, rfl⟩ := exists_eq_scale_add h
    rw [scaledMagnitude_add hLow hHigh.le]
    rcases Nat.lt_or_ge e' e with hLt | hGe
    · refine .inr ⟨he, ?_⟩
      calc
        q * 2 ^ e' < 2 ^ 53 * 2 ^ e' := Nat.mul_lt_mul_of_pos_right hHigh (Nat.two_pow_pos e')
        _ = 2 ^ 52 * 2 ^ (e' + 1) := by rw [Nat.pow_succ]; omega
        _ ≤ 2 ^ 52 * 2 ^ e := Nat.mul_le_mul_left _ (Nat.pow_le_pow_right (by decide) hLt)
    · exact .inl (Nat.dvd_mul_left_of_dvd (Nat.pow_dvd_pow 2 hGe) q)

theorem le_roundRatio {p q m : Nat} (hq : 0 < q) (hm : m ≤ infinityMagnitude)
    (h : scaledMagnitude m * q ≤ p * 2 ^ 1074) : m ≤ roundRatio p q := by
  rw [roundRatio_eq]
  refine Nat.le_min.mpr ⟨?_, hm⟩
  rw [← scaledMagnitude_strictMono.le_iff_le, scaledMagnitude_lastPlace hq]
  rcases dvd_scaledMagnitude_or_lt m (lastPlace p q) with ⟨k, hk⟩ | ⟨hPos, hLt⟩
  · rw [hk] at h ⊢
    rw [Nat.mul_comm]
    apply Nat.mul_le_mul_right
    apply le_roundHalfEven (Nat.mul_pos hq (Nat.two_pow_pos _))
    calc
      k * (q * 2 ^ lastPlace p q) = 2 ^ lastPlace p q * k * q := by
        rw [Nat.mul_comm q, ← Nat.mul_assoc, Nat.mul_comm k]
      _ ≤ p * 2 ^ 1074 := h
  · exact hLt.le.trans (Nat.mul_le_mul_right _ (le_roundedSignificand hq hPos))

theorem roundRatio_le_of_le {p q m : Nat} (hq : 0 < q)
    (h : p * 2 ^ 1074 ≤ scaledMagnitude m * q) : roundRatio p q ≤ m := by
  rw [roundRatio_eq]
  refine (Nat.min_le_left _ _).trans ?_
  rw [← scaledMagnitude_strictMono.le_iff_le, scaledMagnitude_lastPlace hq]
  rcases dvd_scaledMagnitude_or_lt m (lastPlace p q) with ⟨k, hk⟩ | ⟨hPos, hLt⟩
  · rw [hk] at h ⊢
    rw [Nat.mul_comm _ k]
    apply Nat.mul_le_mul_right
    apply roundHalfEven_le (Nat.mul_pos hq (Nat.two_pow_pos _))
    calc
      p * 2 ^ 1074 ≤ 2 ^ lastPlace p q * k * q := h
      _ = k * (q * 2 ^ lastPlace p q) := by
        rw [Nat.mul_comm q, ← Nat.mul_assoc, Nat.mul_comm k]
  · -- The ratio reaches the leading place, the value does not.
    have hReach := (le_of_lastPlace_pos hq hPos).trans h
    rw [Nat.mul_comm q, ← Nat.mul_assoc] at hReach
    exact absurd (Nat.le_of_mul_le_mul_right hReach hq) (Nat.not_le_of_lt hLt)

theorem roundRatio_eq_of_scaledMagnitude {n m : Nat} (hm : m ≤ infinityMagnitude)
    (h : scaledMagnitude m = n * 2 ^ 1074) : roundRatio n 1 = m :=
  Nat.le_antisymm (roundRatio_le_of_le Nat.one_pos (by rw [h, Nat.mul_one]))
    (le_roundRatio Nat.one_pos hm (by rw [h, Nat.mul_one]))

theorem exists_scaledMagnitude_eq {n : Nat} (h : n ≤ 2 ^ 53) :
    ∃ m ≤ infinityMagnitude, scaledMagnitude m = n * 2 ^ 1074 := by
  rcases Nat.eq_zero_or_pos n with rfl | hPos
  · exact ⟨0, Nat.zero_le _, by simp only [scaledMagnitude_zero, Nat.zero_mul]⟩
  -- Shift the significand up to 53 bits and take the shift off the scale.
  obtain ⟨k, hk⟩ : ∃ k, k = 52 - n.log2 := ⟨_, rfl⟩
  have hLow : 2 ^ 52 ≤ n * 2 ^ k := by
    calc
      2 ^ 52 ≤ 2 ^ (n.log2 + k) := Nat.pow_le_pow_right (by decide) (by omega)
      _ = 2 ^ n.log2 * 2 ^ k := Nat.pow_add ..
      _ ≤ n * 2 ^ k := Nat.mul_le_mul_right _ (Nat.log2_self_le hPos.ne')
  have hHigh : n * 2 ^ k ≤ 2 ^ 53 := by
    rcases Nat.lt_or_ge 52 n.log2 with hLog | hLog
    · have hk0 : k = 0 := by omega
      rwa [hk0, Nat.pow_zero, Nat.mul_one]
    · calc
        n * 2 ^ k ≤ 2 ^ (n.log2 + 1) * 2 ^ k := Nat.mul_le_mul_right _ Nat.lt_log2_self.le
        _ = 2 ^ (n.log2 + 1 + k) := (Nat.pow_add ..).symm
        _ = 2 ^ 53 := by rw [show n.log2 + 1 + k = 53 by omega]
  refine ⟨(1074 - k) * 2 ^ 52 + n * 2 ^ k, ?_, ?_⟩
  · rw [infinityMagnitude]
    omega
  · rw [scaledMagnitude_add hLow hHigh, Nat.mul_assoc, ← Nat.pow_add]
    rw [show k + (1074 - k) = 1074 by omega]

theorem scaledMagnitude_two_pow (k : Nat) :
    scaledMagnitude ((k + 1074) * 2 ^ 52 + 2 ^ 52) = 2 ^ (52 + k) * 2 ^ 1074 := by
  rw [scaledMagnitude_add (Nat.le_refl _) (by decide), Nat.pow_add 2 k, ← Nat.mul_assoc,
    Nat.pow_add 2 52]

theorem le_scaledMagnitude_roundRatio {k n : Nat}
    (hk : (k + 1074) * 2 ^ 52 + 2 ^ 52 ≤ infinityMagnitude) (h : 2 ^ (52 + k) ≤ n) :
    2 ^ (52 + k) * 2 ^ 1074 ≤ scaledMagnitude (roundRatio n 1) := by
  rw [← scaledMagnitude_two_pow k]
  refine scaledMagnitude_strictMono.monotone (le_roundRatio Nat.one_pos hk ?_)
  rw [scaledMagnitude_two_pow, Nat.mul_one]
  exact Nat.mul_le_mul_right _ h

theorem scaledMagnitude_roundRatio {n : Nat} (h : n ≤ 2 ^ 53) :
    scaledMagnitude (roundRatio n 1) = n * 2 ^ 1074 := by
  obtain ⟨m, hm, hValue⟩ := exists_scaledMagnitude_eq h
  rw [roundRatio_eq_of_scaledMagnitude hm hValue, hValue]

theorem magnitude_le_of_not_isNaN {x : Binary64} (h : x.isNaN = false) :
    x.magnitude ≤ infinityMagnitude := by
  simpa [isNaN] using h

theorem magnitude_ofInt (n : Int) : (ofInt n).magnitude = roundRatio n.natAbs 1 :=
  magnitude_ofMagnitude (Nat.lt_of_le_of_lt (roundRatio_le _ _) (by decide))

theorem isNegative_ofInt (n : Int) : (ofInt n).isNegative = decide (n < 0) :=
  isNegative_ofMagnitude (Nat.lt_of_le_of_lt (roundRatio_le _ _) (by decide))

theorem isNaN_ofInt (n : Int) : (ofInt n).isNaN = false := by
  have h := roundRatio_le n.natAbs 1
  simpa [isNaN, magnitude_ofInt] using h

theorem scaled_ofInt (n : Int) :
    (ofInt n).scaled =
      if n < 0 then -(scaledMagnitude (roundRatio n.natAbs 1) : Int)
      else scaledMagnitude (roundRatio n.natAbs 1) := by
  simp only [scaled, isNegative_ofInt, magnitude_ofInt, decide_eq_true_eq]

theorem mul_eq_natAbs_mul (n : Int) (p : Nat) :
    n * p = if n < 0 then -((n.natAbs * p : Nat) : Int) else (n.natAbs * p : Nat) := by
  rw [Int.natCast_mul]
  split
  · rename_i hNeg
    rw [← Int.neg_mul, Int.ofNat_natAbs_of_nonpos hNeg.le, Int.neg_neg]
  · rename_i hNonneg
    rw [Int.natAbs_of_nonneg (Int.not_lt.mp hNonneg)]

theorem scaled_ofInt_of_natAbs_le {n : Int} (h : n.natAbs ≤ 2 ^ 53) :
    (ofInt n).scaled = n * (2 ^ 1074 : Nat) := by
  rw [scaled_ofInt, scaledMagnitude_roundRatio h, mul_eq_natAbs_mul]

theorem scaledMagnitude_roundRatio_bounds {n m : Nat} (hm : m ≤ infinityMagnitude) :
    (n * 2 ^ 1074 ≤ scaledMagnitude m → scaledMagnitude (roundRatio n 1) ≤ scaledMagnitude m) ∧
      (scaledMagnitude m ≤ n * 2 ^ 1074 →
        scaledMagnitude m ≤ scaledMagnitude (roundRatio n 1)) := by
  constructor <;> intro h
  · exact scaledMagnitude_strictMono.monotone
      (roundRatio_le_of_le Nat.one_pos (by rwa [Nat.mul_one]))
  · exact scaledMagnitude_strictMono.monotone
      (le_roundRatio Nat.one_pos hm (by rwa [Nat.mul_one]))

theorem scaled_ofInt_bounds {n : Int} {x : Binary64} (hx : x.isNaN = false) :
    (n * (2 ^ 1074 : Nat) ≤ x.scaled → (ofInt n).scaled ≤ x.scaled) ∧
      (x.scaled ≤ n * (2 ^ 1074 : Nat) → x.scaled ≤ (ofInt n).scaled) := by
  have hMagnitude := magnitude_le_of_not_isNaN hx
  have hBounds := scaledMagnitude_roundRatio_bounds (n := n.natAbs) hMagnitude
  have hZero := scaledMagnitude_roundRatio_bounds (n := n.natAbs) (Nat.zero_le infinityMagnitude)
  rw [scaledMagnitude_zero] at hZero
  rw [mul_eq_natAbs_mul, scaled_ofInt, scaled]
  generalize n.natAbs * 2 ^ 1074 = a at hBounds hZero
  generalize scaledMagnitude (roundRatio n.natAbs 1) = b at hBounds hZero
  generalize scaledMagnitude x.magnitude = c at hBounds
  cases x.isNegative <;> by_cases hNeg : n < 0 <;>
    simp only [hNeg, Bool.false_eq_true, if_true, if_false] <;> omega

theorem lastPlace_mono {p k q : Nat} (h : p ≤ k) : lastPlace p q ≤ lastPlace k q := by
  have hScaled : p * 2 ^ 1074 / q ≤ k * 2 ^ 1074 / q :=
    Nat.div_le_div_right (Nat.mul_le_mul_right _ h)
  have hLog : (p * 2 ^ 1074 / q).log2 ≤ (k * 2 ^ 1074 / q).log2 := by
    rcases Nat.eq_zero_or_pos (p * 2 ^ 1074 / q) with h0 | hPos
    · rw [h0, Nat.log2_zero]
      exact Nat.zero_le _
    · rw [Nat.le_log2 (by omega)]
      exact (Nat.log2_self_le (by omega)).trans hScaled
  exact Nat.sub_le_sub_right hLog 52

/-- Within one last place the significands are monotone; a greater last place starts no lower than
where the smaller one ends. -/
theorem roundRatio_mono {p k q : Nat} (hq : 0 < q) (h : p ≤ k) : roundRatio p q ≤ roundRatio k q := by
  rw [roundRatio_eq, roundRatio_eq]
  refine Nat.le_min.mpr ⟨(Nat.min_le_left _ _).trans ?_, Nat.min_le_right _ _⟩
  rcases Nat.lt_or_eq_of_le (lastPlace_mono (q := q) h) with hLt | hEq
  · have hHigh := roundedSignificand_le (p := p) hq
    have hLow := le_roundedSignificand (p := k) hq (Nat.lt_of_le_of_lt (Nat.zero_le _) hLt)
    omega
  · have hSignificands : roundedSignificand p q ≤ roundedSignificand k q := by
      rw [roundedSignificand, roundedSignificand, ← hEq]
      exact roundHalfEven_mono (Nat.mul_le_mul_right _ h)
    omega

theorem key_ofInt (n : Int) :
    (ofInt n).key =
      if n < 0 then -(roundRatio n.natAbs 1 : Int) else roundRatio n.natAbs 1 := by
  simp only [key, isNegative_ofInt, magnitude_ofInt, decide_eq_true_eq]

theorem key_ofInt_mono {m n : Int} (h : m ≤ n) : (ofInt m).key ≤ (ofInt n).key := by
  have hUp := roundRatio_mono (p := m.natAbs) (k := n.natAbs) Nat.one_pos
  have hDown := roundRatio_mono (p := n.natAbs) (k := m.natAbs) Nat.one_pos
  rw [key_ofInt, key_ofInt]
  split <;> split <;> omega

end Binary64

end RecordFilter
