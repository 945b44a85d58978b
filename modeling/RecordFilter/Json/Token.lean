import RecordFilter.Json.Basic
import RecordFilter.Text.Digits

/-!
# JSON tokens

The tokens of a JSON text after RFC 8259: blanks are only the four of the standard, numbers have no
leading zeros, strings hold no raw control characters. An integer that fits 64 bits stays an
integer. Any other number is read through a significand of at most 64 bits and rounded again when
the power of ten is applied, so it is not always the nearest real.
-/

namespace RecordFilter

inductive Token where
  | openArray
  | closeArray
  | openObject
  | closeObject
  | colon
  | comma
  | null
  | bool (b : Bool)
  | number (n : Option Number)
  | string (s : Option String)
deriving DecidableEq

namespace Token

/-- One character of a string as written: itself, or a UTF-16 unit in hexadecimal. -/
inductive Piece where
  | char (c : Char)
  | unit (u : Nat)

def hexDigit? (c : Char) : Option Nat :=
  if c.isDigit then some (c.toNat - '0'.toNat)
  else if 'a' ≤ c ∧ c ≤ 'f' then some (c.toNat - 'a'.toNat + 10)
  else if 'A' ≤ c ∧ c ≤ 'F' then some (c.toNat - 'A'.toNat + 10)
  else none

def hexUnit? (a b c d : Char) : Option Nat := do
  return ((← hexDigit? a) * 16 + (← hexDigit? b)) * 256 + (← hexDigit? c) * 16 + (← hexDigit? d)

def escaped? : Char → Option Char
  | '"' => some '"'
  | '\\' => some '\\'
  | '/' => some '/'
  | 'b' => some '\x08'
  | 'f' => some '\x0c'
  | 'n' => some '\n'
  | 'r' => some '\r'
  | 't' => some '\t'
  | _ => none

def readPieces? : List Char → List Piece → Option (List Piece × List Char)
  | [], _ => none
  | '"' :: cs, done => some (done.reverse, cs)
  | '\\' :: 'u' :: a :: b :: c :: d :: cs, done => match hexUnit? a b c d with
    | some u => readPieces? cs (.unit u :: done)
    | none => none
  | '\\' :: e :: cs, done => match escaped? e with
    | some c => readPieces? cs (.char c :: done)
    | none => none
  | c :: cs, done => if c.toNat < 0x20 then none else readPieces? cs (.char c :: done)

theorem length_of_readPieces? {cs : List Char} {done ps : List Piece} {rest : List Char}
    (h : readPieces? cs done = some (ps, rest)) : rest.length ≤ cs.length := by
  fun_induction readPieces? cs done <;> simp_all <;> omega

def isHighSurrogate (u : Nat) : Bool := 0xd800 ≤ u && u ≤ 0xdbff

def isLowSurrogate (u : Nat) : Bool := 0xdc00 ≤ u && u ≤ 0xdfff

/-- The characters of pieces, after those before in reverse; none if half a surrogate pair stands
alone. -/
def joinPieces? : List Piece → List Char → Option (List Char)
  | [], done => some done.reverse
  | .char c :: ps, done => joinPieces? ps (c :: done)
  | .unit u :: .unit v :: ps, done =>
    if isHighSurrogate u && isLowSurrogate v then
      joinPieces? ps (Char.ofNat (0x10000 + (u - 0xd800) * 0x400 + (v - 0xdc00)) :: done)
    else if isHighSurrogate u || isLowSurrogate u then none
    else joinPieces? (.unit v :: ps) (Char.ofNat u :: done)
  | .unit u :: ps, done =>
    if isHighSurrogate u || isLowSurrogate u then none else joinPieces? ps (Char.ofNat u :: done)

def significandMax : Nat := 2 ^ 64 - 1

/-- Appends digits to a significand while they fit, and tells how many did not. -/
def appendDigits (significand : Nat) : List Char → Nat × Nat
  | [] => (significand, 0)
  | d :: ds =>
    let next := significand * 10 + (d.toNat - '0'.toNat)
    if next ≤ significandMax then appendDigits next ds else (significand, ds.length + 1)

/-- The largest power of ten that is applied in one step. -/
def stepExponent : Nat := 308

def powerOfTen (k : Nat) : Nat := Binary64.roundRatio (10 ^ k) 1

/-- The magnitude of a significand times a power of ten, none if it is infinite. Below the least
step the significand is first divided by that step; any smaller exponent leaves zero. -/
def scaleSignificand? (significand : Nat) (exponent : Int) : Option Nat :=
  let m := Binary64.roundRatio significand 1
  let step : Int := stepExponent
  if m = 0 then some 0
  else if step < exponent then none
  else if 0 ≤ exponent then
    let r := Binary64.mulMagnitude m (powerOfTen exponent.toNat)
    if r < Binary64.infinityMagnitude then some r else none
  else if -step ≤ exponent then some (Binary64.divMagnitude m (powerOfTen (-exponent).toNat))
  else if -step - step ≤ exponent then
    let r := Binary64.divMagnitude m (powerOfTen stepExponent)
    some (Binary64.divMagnitude r (powerOfTen (-(exponent + step)).toNat))
  else some 0

structure NumberText where
  negative : Bool
  whole : List Char
  /-- The digits after the point, none without a point. -/
  fraction : List Char
  /-- The exponent, none without an exponent. -/
  exponent : Option Int

def NumberText.real? (t : NumberText) : Option Binary64 :=
  let (significand, dropped) := appendDigits 0 t.whole
  let (significand', ignored) := appendDigits significand t.fraction
  let places : Int := t.fraction.length - ignored
  (scaleSignificand? significand' (t.exponent.getD 0 + dropped - places)).map
    (Binary64.ofMagnitude t.negative)

/-- The number a text stands for. The integer zero with a minus sign is the real `-0`. -/
def NumberText.value? (t : NumberText) : Option Number :=
  let n : Int := Text.digitsValue t.whole
  if t.fraction.isEmpty && t.exponent.isNone && !(t.negative && n == 0) then
    match Number.ofInteger? (if t.negative then -n else n) with
    | some n => some n
    | none => t.real?.map .real
  else t.real?.map .real

/-- The digits before the point: a zero alone, or digits that do not start with one. -/
def readWhole? : List Char → Option (List Char × List Char)
  | '0' :: cs => some (['0'], cs)
  | cs => match Text.spanDigits cs with
    | ([], _) => none
    | r => some r

def readFraction? : List Char → Option (List Char × List Char)
  | '.' :: cs => match Text.spanDigits cs with
    | ([], _) => none
    | r => some r
  | cs => some ([], cs)

def readExponentDigits? (negative : Bool) (cs : List Char) : Option (Option Int × List Char) :=
  match Text.spanDigits cs with
  | ([], _) => none
  | (ds, cs) =>
    let n : Int := Text.digitsValue ds
    some (some (if negative then -n else n), cs)

def readExponent? : List Char → Option (Option Int × List Char)
  | c :: cs =>
    if c = 'e' || c = 'E' then
      match cs with
      | '-' :: cs => readExponentDigits? true cs
      | '+' :: cs => readExponentDigits? false cs
      | cs => readExponentDigits? false cs
    else some (none, c :: cs)
  | [] => some (none, [])

def readUnsigned? (negative : Bool) (cs : List Char) : Option (NumberText × List Char) := do
  let (whole, cs) ← readWhole? cs
  let (fraction, cs) ← readFraction? cs
  let (exponent, cs) ← readExponent? cs
  return ({ negative, whole, fraction, exponent }, cs)

def readNumber? : List Char → Option (NumberText × List Char)
  | '-' :: cs => readUnsigned? true cs
  | cs => readUnsigned? false cs

def isBlank (c : Char) : Bool := c = ' ' || c = '\t' || c = '\n' || c = '\r'

def next? : List Char → Option (Token × List Char)
  | '[' :: cs => some (openArray, cs)
  | ']' :: cs => some (closeArray, cs)
  | '{' :: cs => some (openObject, cs)
  | '}' :: cs => some (closeObject, cs)
  | ':' :: cs => some (colon, cs)
  | ',' :: cs => some (comma, cs)
  | 'n' :: 'u' :: 'l' :: 'l' :: cs => some (null, cs)
  | 't' :: 'r' :: 'u' :: 'e' :: cs => some (bool true, cs)
  | 'f' :: 'a' :: 'l' :: 's' :: 'e' :: cs => some (bool false, cs)
  | '"' :: cs => (readPieces? cs []).map fun (ps, cs) =>
      (string ((joinPieces? ps []).map String.ofList), cs)
  | cs => (readNumber? cs).map fun (t, cs) => (number t.value?, cs)

end Token

end RecordFilter
