import RecordFilter.Binary64.Round
import RecordFilter.Text.Digits

/-!
# Reading binary64 numbers from decimal text

A decimal is a sign, digits with an optional point, and an optional exponent; it stands for the
binary64 number nearest to its exact value. The words for infinity and NaN are read in any case.
-/

namespace RecordFilter.Binary64

/-- The magnitude nearest to `n * 10 ^ e`.

A decimal of `k` digits and exponent `e` lies between `10 ^ (e + k - 1)` and `10 ^ (e + k)`, so far
exponents are settled without forming the power. -/
def ofDecimal (n : Nat) (e : Int) : Nat :=
  let k : Int := (Nat.toDigits 10 n).length
  if n = 0 then 0
  else if 400 < e + k then infinityMagnitude
  else if e + k < -400 then 0
  else if 0 ≤ e then roundRatio (n * 10 ^ e.toNat) 1
  else roundRatio n (10 ^ (-e).toNat)

def readExponent? : List Char → Option Int
  | [] => some 0
  | c :: cs => if c = 'e' || c = 'E' then Text.readSigned? cs else none

def readDecimal? (cs : List Char) : Option Nat :=
  let (whole, rest) := Text.spanDigits cs
  let (part, rest) := match rest with
    | '.' :: rest => Text.spanDigits rest
    | rest => ([], rest)
  if whole.isEmpty && part.isEmpty then none
  else (readExponent? rest).map fun e =>
    ofDecimal (Text.digitsValue (whole ++ part)) (e - part.length)

def readMagnitude? (cs : List Char) : Option Nat :=
  let word := String.ofList (cs.map Char.toLower)
  if word = "inf" || word = "infinity" then some infinityMagnitude
  else if word = "nan" then some nan.magnitude
  else readDecimal? cs

def read? : List Char → Option Binary64
  | '-' :: cs => (readMagnitude? cs).map (ofMagnitude true)
  | '+' :: cs => (readMagnitude? cs).map (ofMagnitude false)
  | cs => (readMagnitude? cs).map (ofMagnitude false)

end RecordFilter.Binary64
