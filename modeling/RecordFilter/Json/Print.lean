import RecordFilter.Json.Token

/-!
# Printing JSON

A value is written without blanks. Characters that a string cannot hold are escaped, by one letter
where there is one. A part without a value is written as null.
-/

namespace RecordFilter

mutual

def Json.tokens : Json → List Token
  | .null => [.null]
  | .bool b => [.bool b]
  | .number n => [.number n]
  | .string s => [.string s]
  | .array items => .openArray :: (Json.itemTokens items ++ [.closeArray])
  | .object members => .openObject :: (Json.memberTokens members ++ [.closeObject])

def Json.itemTokens : List Json → List Token
  | [] => []
  | [j] => j.tokens
  | j :: js => j.tokens ++ .comma :: Json.itemTokens js

def Json.memberTokens : List (Option String × Json) → List Token
  | [] => []
  | [(k, j)] => .string k :: .colon :: j.tokens
  | (k, j) :: ms => .string k :: .colon :: (j.tokens ++ .comma :: Json.memberTokens ms)

end

namespace Token

def escapeLetter? : Char → Option Char
  | '"' => some '"'
  | '\\' => some '\\'
  | '\x08' => some 'b'
  | '\x0c' => some 'f'
  | '\n' => some 'n'
  | '\r' => some 'r'
  | '\t' => some 't'
  | _ => none

def escape (c : Char) : List Char :=
  match escapeLetter? c with
  | some e => ['\\', e]
  | none =>
    if c.toNat < 0x20 then
      ['\\', 'u', '0', '0', (c.toNat / 16).digitChar, (c.toNat % 16).digitChar]
    else [c]

def quote (s : String) : List Char := '"' :: (s.toList.flatMap escape ++ ['"'])

/-- A number; a whole real has a point, so that it is read back as a real. -/
def numberChars : Number → List Char
  | .real x =>
    if x.isFinite then
      let cs := x.text.toList
      if cs.contains '.' then cs else cs ++ ['.', '0']
    else "null".toList
  | n => n.text.toList

def chars : Token → List Char
  | openArray => ['[']
  | closeArray => [']']
  | openObject => ['{']
  | closeObject => ['}']
  | colon => [':']
  | comma => [',']
  | null | number none | string none => "null".toList
  | bool b => (if b then "true" else "false").toList
  | number (some n) => numberChars n
  | string (some s) => quote s

end Token

def Json.text (j : Json) : String := String.ofList (j.tokens.flatMap Token.chars)

end RecordFilter
