import RecordFilter.Power

/-!
# Binary64 numbers

A number of the binary64 format is its 64-bit word. The lower 63 bits, its magnitude, order the
finite numbers of one sign; every finite number is a whole multiple of `2 ^ -1074`, so values are
compared exactly as integers. The two zeros are equal, a NaN is comparable with nothing, and a
second order by words places every NaN too.
-/

namespace RecordFilter

structure Binary64 where
  word : UInt64
deriving DecidableEq

namespace Binary64

/-- The word without its sign bit. -/
def magnitude (x : Binary64) : Nat := x.word.toNat % 2 ^ 63

def isNegative (x : Binary64) : Bool := 2 ^ 63 ≤ x.word.toNat

/-- The magnitude of both infinities; NaNs lie above it. -/
def infinityMagnitude : Nat := 0x7ff0000000000000

def isNaN (x : Binary64) : Bool := infinityMagnitude < x.magnitude

def isFinite (x : Binary64) : Bool := x.magnitude < infinityMagnitude

def ofMagnitude (negative : Bool) (m : Nat) : Binary64 :=
  ⟨.ofNat (if negative then 2 ^ 63 + m else m)⟩

theorem magnitude_ofMagnitude {negative : Bool} {m : Nat} (h : m < 2 ^ 63) :
    (ofMagnitude negative m).magnitude = m := by
  cases negative <;> simp [ofMagnitude, magnitude, UInt64.toNat_ofNat'] <;> omega

theorem isNegative_ofMagnitude {negative : Bool} {m : Nat} (h : m < 2 ^ 63) :
    (ofMagnitude negative m).isNegative = negative := by
  cases negative <;> simp [ofMagnitude, isNegative, UInt64.toNat_ofNat'] <;> omega

def zero : Binary64 := ofMagnitude false 0

def nan : Binary64 := ofMagnitude false 0x7ff8000000000000

def infinity : Binary64 := ofMagnitude false infinityMagnitude

def withSign (negative : Bool) (x : Binary64) : Binary64 := ofMagnitude negative x.magnitude

def significand (m : Nat) : Nat := if m / 2 ^ 52 = 0 then m else 2 ^ 52 + m % 2 ^ 52

/-- The power of two by which the significand of a magnitude is scaled, above `2 ^ -1074`. -/
def scale (m : Nat) : Nat := m / 2 ^ 52 - 1

/-- The value of a finite magnitude in units of `2 ^ -1074`. -/
def scaledMagnitude (m : Nat) : Nat := significand m * 2 ^ scale m

/-- The value of a finite number in units of `2 ^ -1074`; an infinity counts as `2 ^ 1024`. -/
def scaled (x : Binary64) : Int :=
  if x.isNegative then -(scaledMagnitude x.magnitude : Int) else scaledMagnitude x.magnitude

/-- The magnitude with its sign: the order of values on numbers other than NaN. -/
def key (x : Binary64) : Int := if x.isNegative then -(x.magnitude : Int) else x.magnitude

def compare? (x y : Binary64) : Option Ordering :=
  if x.isNaN || y.isNaN then none else some (compare x.key y.key)

/-- The place of a word in the order of words: negative NaNs, negative numbers, `-0`, `0`,
positive numbers, positive NaNs. -/
def wordKey (x : Binary64) : Int := if x.isNegative then -(x.magnitude : Int) - 1 else x.magnitude

def compareWords (x y : Binary64) : Ordering := compare x.wordKey y.wordKey

end Binary64

end RecordFilter
