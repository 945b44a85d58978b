import RecordFilter.Binary64.Basic

/-!
# Rounding to binary64

Every conversion rounds an exact ratio once, to the nearest number with ties to the even
significand. Ratios beyond the largest finite number round to infinity.
-/

namespace RecordFilter

def roundHalfEven (n d : Nat) : Nat :=
  let q := n / d
  let r := n % d
  if 2 * r < d || (2 * r == d && q % 2 == 0) then q else q + 1

namespace Binary64

/-- The magnitude of the number nearest to `p / q`.

With `n / q` in units of `2 ^ -1074`, the significand is that quotient cut to its leading 53 bits;
a carry out of the significand lands in the exponent field, where it belongs. -/
def roundRatio (p q : Nat) : Nat :=
  let n := p * 2 ^ 1074
  let e := Nat.log2 (n / q) - 52
  min (e * 2 ^ 52 + roundHalfEven n (q * 2 ^ e)) infinityMagnitude

theorem roundRatio_le (p q : Nat) : roundRatio p q ≤ infinityMagnitude := Nat.min_le_right _ _

def ofNat (n : Nat) : Binary64 := ofMagnitude false (roundRatio n 1)

def ofInt (n : Int) : Binary64 := ofMagnitude (n < 0) (roundRatio n.natAbs 1)

def mulMagnitude (m k : Nat) : Nat :=
  roundRatio (scaledMagnitude m * scaledMagnitude k) (2 ^ 1074 * 2 ^ 1074)

def divMagnitude (m k : Nat) : Nat := roundRatio (scaledMagnitude m) (scaledMagnitude k)

end Binary64

end RecordFilter
