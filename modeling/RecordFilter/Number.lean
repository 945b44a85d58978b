import RecordFilter.Binary64.Round
import RecordFilter.Binary64.Shortest

/-!
# Numbers

A number keeps the encoding in which it was given: a signed or an unsigned 64-bit integer, or a
binary64 real. Integers are compared exactly in any mix of encodings. When a real takes part, both
sides are compared as reals, so an integer beyond `2 ^ 53` may equal a real next to it.
-/

namespace RecordFilter

inductive Number where
  | int (n : Int64)
  | nat (n : UInt64)
  | real (x : Binary64)
deriving DecidableEq

namespace Number

def integer? : Number → Option Int
  | int n => some n.toInt
  | nat n => some n.toNat
  | real _ => none

def toReal : Number → Binary64
  | int n => .ofInt n.toInt
  | nat n => .ofNat n.toNat
  | real x => x

def compare? (a b : Number) : Option Ordering :=
  match a.integer?, b.integer? with
  | some m, some n => some (compare m n)
  | _, _ => a.toReal.compare? b.toReal

/-- The order for sorting: by value, and by words when a NaN takes part. -/
def order (a b : Number) : Ordering :=
  (a.compare? b).getD (a.toReal.compareWords b.toReal)

def text : Number → String
  | int n => n.toInt.repr
  | nat n => n.toNat.repr
  | real x => x.text

def isFinite : Number → Bool
  | real x => x.isFinite
  | _ => true

/-- The signed integer, if it fits; else the unsigned one, if it fits. -/
def ofInteger? (n : Int) : Option Number :=
  if -2 ^ 63 ≤ n && n < 2 ^ 63 then some (int (.ofInt n))
  else if 0 ≤ n && n < 2 ^ 64 then some (nat (.ofNat n.toNat))
  else none

theorem compare?_of_integers {a b : Number} {m n : Int} (ha : a.integer? = some m)
    (hb : b.integer? = some n) : a.compare? b = some (compare m n) := by
  simp [compare?, ha, hb]

theorem order_of_compare? {a b : Number} {o : Ordering} (h : a.compare? b = some o) :
    a.order b = o := by
  simp [order, h]

theorem ofInteger?_toInt (n : Int64) : ofInteger? n.toInt = some (int n) := by
  have hLeast := n.le_toInt
  have hMost := n.toInt_lt
  rw [ofInteger?, if_pos (by simp; omega), Int64.ofInt_toInt]

theorem ofInteger?_toNat {n : UInt64} (h : 2 ^ 63 ≤ n.toNat) :
    ofInteger? n.toNat = some (nat n) := by
  have hMost := n.toNat_lt
  rw [ofInteger?, if_neg (by simp; omega), if_pos (by simp; omega), Int.toNat_natCast,
    UInt64.ofNat_toNat]

theorem ofInteger?_eq_none_iff {n : Int} :
    ofInteger? n = none ↔ n < -2 ^ 63 ∨ 2 ^ 64 ≤ n := by
  simp only [ofInteger?, Bool.and_eq_true, decide_eq_true_eq]
  split
  · simp only [reduceCtorEq, false_iff]
    omega
  · split
    · simp only [reduceCtorEq, false_iff]
      omega
    · simp only [true_iff]
      omega

theorem integer?_of_ofInteger? {n : Int} {a : Number} (h : ofInteger? n = some a) :
    a.integer? = some n := by
  simp only [ofInteger?, Bool.and_eq_true, decide_eq_true_eq] at h
  split at h
  · rename_i hRange
    cases h
    exact congrArg some (Int64.toInt_ofInt_of_le hRange.1 hRange.2)
  · split at h
    · rename_i hRange
      cases h
      refine congrArg some ?_
      rw [UInt64.toNat_ofNat', Nat.mod_eq_of_lt (by omega), Int.toNat_of_nonneg hRange.1]
    · cases h

end Number

end RecordFilter
