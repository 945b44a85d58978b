/-!
# Decimal digits

Reading and writing whole numbers in decimal. Only the ASCII digits count.
-/

namespace RecordFilter.Text

/-- The number written by a list of digits, the most significant first. -/
def digitsValue (ds : List Char) : Nat :=
  ds.foldl (fun n d => 10 * n + (d.toNat - '0'.toNat)) 0

@[simp] theorem digitsValue_nil : digitsValue [] = 0 := rfl

def spanDigits (cs : List Char) : List Char × List Char :=
  (cs.takeWhile Char.isDigit, cs.dropWhile Char.isDigit)

theorem spanDigits_append (cs : List Char) : (spanDigits cs).1 ++ (spanDigits cs).2 = cs :=
  List.takeWhile_append_dropWhile

def readNat? (cs : List Char) : Option Nat :=
  if cs.isEmpty || !cs.all Char.isDigit then none else some (digitsValue cs)

def readUnsigned? : List Char → Option Nat
  | '+' :: cs => readNat? cs
  | cs => readNat? cs

def readSigned? : List Char → Option Int
  | '-' :: cs => (readNat? cs).map fun n => -(n : Int)
  | cs => (readUnsigned? cs).map Int.ofNat

def replaceChar (sep : Char) (out : String) (s : String) : String :=
  String.ofList (s.toList.flatMap fun c => if c = sep then out.toList else [c])

/-- The pieces of a text between the dots; a text without dots is one piece. -/
def splitDots (s : String) : List String :=
  (s.toList.splitOnP (· == '.')).map String.ofList

end RecordFilter.Text
