/-!
# Blank characters

The blanks dropped at the ends of a text are the characters with the Unicode property
`White_Space`, which reaches beyond ASCII. Texts are read as lists of characters throughout.
-/

namespace RecordFilter.Text

/-- The code points with the Unicode property `White_Space`. -/
def isBlank (c : Char) : Bool :=
  let n := c.toNat
  (9 ≤ n && n ≤ 13) || n == 0x20 || n == 0x85 || n == 0xa0 || n == 0x1680 ||
    (0x2000 ≤ n && n ≤ 0x200a) || n == 0x2028 || n == 0x2029 || n == 0x202f ||
    n == 0x205f || n == 0x3000

def trimStart (cs : List Char) : List Char := cs.dropWhile isBlank

def trimEnd (cs : List Char) : List Char := (trimStart cs.reverse).reverse

def trim (cs : List Char) : List Char := trimEnd (trimStart cs)

def isBlankText (s : String) : Bool := (trim s.toList).isEmpty

end RecordFilter.Text
