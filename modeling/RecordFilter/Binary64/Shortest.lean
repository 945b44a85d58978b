import RecordFilter.Binary64.Basic

/-!
# Shortest decimal text of a binary64 number

A finite number is written with the fewest digits that read back as itself and, among decimals of
that length, with the nearest one. The digits are placed positionally at any size; there is never
an exponent, and a whole number has no point.

The decimals that read back as a number fill the interval up to halfway to its two neighbours. The
ends belong to it exactly when the significand is even. All arithmetic is on integers: values are
quarters of the last place, over the denominator `2 ^ 1076`.
-/

namespace RecordFilter.Binary64

/-- An interval of positive ratios with a point in it, all over one denominator. -/
structure Neighbourhood where
  low : Nat
  point : Nat
  high : Nat
  denominator : Nat
  /-- Whether the two ends belong to the interval. -/
  closed : Bool

/-- The decimals that read back as a nonzero finite magnitude. Below a power of two the neighbour is
at half the distance. -/
def neighbourhood (m : Nat) : Neighbourhood :=
  let s := significand m
  let unit := 2 ^ scale m
  let below := if s = 2 ^ 52 && scale m != 0 then 1 else 2
  { low := (4 * s - below) * unit
    point := 4 * s * unit
    high := (4 * s + 2) * unit
    denominator := 2 ^ 1076
    closed := s % 2 == 0 }

def Neighbourhood.contains (v : Neighbourhood) (n d : Nat) : Bool :=
  let n := n * v.denominator
  if v.closed then v.low * d ≤ n && n ≤ v.high * d else v.low * d < n && n < v.high * d

structure Decimal where
  digits : Nat
  exponent : Int

/-- The multiple of `10 ^ j` nearest to the point among its two neighbours, if it lies in the
interval; halfway the larger one. -/
def Neighbourhood.onGrid? (v : Neighbourhood) (j : Int) : Option Decimal :=
  let up := 10 ^ j.toNat
  let down := 10 ^ (-j).toNat
  let n := v.point * down
  let d := v.denominator * up
  let t := n / d
  let r := n % d
  let lower := v.contains (t * up) down
  let upper := v.contains ((t + 1) * up) down
  if upper && (!lower || d ≤ 2 * r) then some ⟨t + 1, j⟩
  else if lower then some ⟨t, j⟩
  else none

/-- The position just above the leading digit of `n / d`, for ratios above `10 ^ -400`. -/
def leadingPosition (n d : Nat) : Int :=
  ((Nat.toDigits 10 (n * 10 ^ 400 / d)).length : Int) - 400

/-- The shortest decimal of a nonzero finite magnitude: seventeen digits always suffice. -/
def shortest (m : Nat) : Decimal :=
  let v := neighbourhood m
  let k := leadingPosition v.point v.denominator
  ((List.range 17).findSome? fun i => v.onGrid? (k - (i + 1 : Nat))).getD ⟨0, 0⟩

def fractionText (ds : List Char) : List Char :=
  match (ds.reverse.dropWhile (· == '0')).reverse with
  | [] => []
  | ds => '.' :: ds

/-- A decimal without exponent: zeros fill the places the digits do not reach. -/
def Decimal.text (d : Decimal) : String :=
  let places := (-d.exponent).toNat
  let ds := Nat.toDigits 10 d.digits ++ List.replicate d.exponent.toNat '0'
  let ds := List.replicate (places + 1 - ds.length) '0' ++ ds
  let whole := ds.length - places
  String.ofList (ds.take whole ++ fractionText (ds.drop whole))

def magnitudeText (m : Nat) : String :=
  if m = 0 then "0" else if m = infinityMagnitude then "inf" else (shortest m).text

def text (x : Binary64) : String :=
  if x.isNaN then "NaN"
  else if x.isNegative then "-" ++ magnitudeText x.magnitude
  else magnitudeText x.magnitude

end RecordFilter.Binary64
