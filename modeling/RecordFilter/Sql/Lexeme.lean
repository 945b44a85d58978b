import RecordFilter.Sql.Expression

/-!
# Cutting SQL into lexemes

A database reads a clause as quoted identifiers, text literals, words, numbers, placeholders,
operators and marks, with blanks between them. A quote inside quotes is written twice; a word, a
number or a placeholder goes on as long as its characters do.
-/

namespace RecordFilter.Sql

inductive Lexeme where
  | identifier (s : String)
  | literal (s : String)
  | word (s : String)
  | number (n : Nat)
  /-- A placeholder, with its position if that is written. -/
  | placeholder (position : Option Nat)
  | operator (op : Comparison)
  | mark (c : Char)
deriving DecidableEq

namespace Lexeme

/-- What is left of a quoted text after its first quote, and what follows the last one. -/
def readQuoted? (quote : Char) : List Char → Option (List Char × List Char)
  | [] => none
  | c :: cs =>
    if c = quote then
      match cs with
      | [] => some ([], [])
      | d :: ds =>
        if d = quote then (readQuoted? quote ds).map fun (s, rest) => (quote :: s, rest)
        else some ([], d :: ds)
    else (readQuoted? quote cs).map fun (s, rest) => (c :: s, rest)

def readOperator? : List Char → Option (Comparison × List Char)
  | '=' :: cs => some (.eq, cs)
  | '<' :: '>' :: cs => some (.ne, cs)
  | '<' :: '=' :: cs => some (.le, cs)
  | '<' :: cs => some (.lt, cs)
  | '>' :: '=' :: cs => some (.ge, cs)
  | '>' :: cs => some (.gt, cs)
  | _ => none

def positionOf (digits : List Char) : Option Nat :=
  if digits.isEmpty then none else some (Text.digitsValue digits)

def isMark (c : Char) : Bool :=
  c = '(' || c = ')' || c = ',' || c = '.' || c = '+' || c = '%' || c = '*'

def quoted? (quote : Char) (make : String → Lexeme) (cs : List Char) :
    Option (Lexeme × List Char) :=
  (readQuoted? quote cs).map fun (s, rest) => (make (String.ofList s), rest)

def next? : List Char → Option (Lexeme × List Char)
  | [] => none
  | c :: cs =>
    if c = '"' then quoted? '"' identifier cs
    else if c = '\x27' then quoted? '\x27' literal cs
    else if c.isAlpha then
      some (word (String.ofList (c :: cs.takeWhile Char.isAlpha)), cs.dropWhile Char.isAlpha)
    else if c.isDigit then
      some (number (Text.digitsValue (c :: cs.takeWhile Char.isDigit)), cs.dropWhile Char.isDigit)
    else if c = '?' || c = '$' then
      some (placeholder (positionOf (cs.takeWhile Char.isDigit)), cs.dropWhile Char.isDigit)
    else if isMark c then some (mark c, cs)
    else (readOperator? (c :: cs)).map fun (op, rest) => (operator op, rest)

theorem length_of_readQuoted? {quote : Char} {cs s rest : List Char}
    (h : readQuoted? quote cs = some (s, rest)) : rest.length < cs.length := by
  fun_induction readQuoted? quote cs generalizing s with
  | case1 => cases h
  | case2 => cases h; simp
  | case3 ds ih =>
    obtain ⟨⟨s', rest'⟩, hRest, hEq⟩ := Option.map_eq_some_iff.mp h
    cases hEq
    have := ih hRest
    simp only [List.length_cons]
    omega
  | case4 => cases h; simp
  | case5 c cs hc ih =>
    obtain ⟨⟨s', rest'⟩, hRest, hEq⟩ := Option.map_eq_some_iff.mp h
    cases hEq
    have := ih hRest
    simp only [List.length_cons]
    omega

theorem length_of_readOperator? {cs rest : List Char} {op : Comparison}
    (h : readOperator? cs = some (op, rest)) : rest.length < cs.length := by
  unfold readOperator? at h
  split at h <;> cases h <;> simp only [List.length_cons] <;> omega

theorem length_dropWhile_lt (p : Char → Bool) (c : Char) (cs : List Char) :
    (cs.dropWhile p).length < (c :: cs).length :=
  Nat.lt_succ_of_le (List.dropWhile_sublist p).length_le

theorem length_of_next? {cs rest : List Char} {t : Lexeme} (h : next? cs = some (t, rest)) :
    rest.length < cs.length := by
  cases cs with
  | nil => cases h
  | cons c cs =>
    have hQuoted {quote : Char} {make : String → Lexeme}
        (h : quoted? quote make cs = some (t, rest)) : rest.length < (c :: cs).length := by
      obtain ⟨⟨s, rest'⟩, hRead, hEq⟩ := Option.map_eq_some_iff.mp h
      cases hEq
      exact Nat.lt_succ_of_lt (length_of_readQuoted? hRead)
    have hSpan {p : Char → Bool} {u : Lexeme} (h : some (u, cs.dropWhile p) = some (t, rest)) :
        rest.length < (c :: cs).length := by
      cases h
      exact length_dropWhile_lt p c cs
    rw [next?] at h
    split at h
    · exact hQuoted h
    split at h
    · exact hQuoted h
    split at h
    · exact hSpan h
    split at h
    · exact hSpan h
    split at h
    · exact hSpan h
    split at h
    · cases h
      exact Nat.lt_succ_self _
    · obtain ⟨⟨op, rest'⟩, hRead, hEq⟩ := Option.map_eq_some_iff.mp h
      cases hEq
      exact length_of_readOperator? hRead

end Lexeme

def lexemes? (cs : List Char) : Option (List Lexeme) :=
  match cs with
  | [] => some []
  | c :: cs =>
    if c = ' ' then lexemes? cs
    else match _h : Lexeme.next? (c :: cs) with
      | none => none
      | some (t, rest) => (lexemes? rest).map (t :: ·)
termination_by cs.length
decreasing_by
  · exact Nat.lt_succ_self _
  · exact Lexeme.length_of_next? _h

theorem lexemes?_nil : lexemes? [] = some [] := by
  rw [lexemes?]

theorem lexemes?_blank (cs : List Char) : lexemes? (' ' :: cs) = lexemes? cs := by
  rw [lexemes?, if_pos rfl]

theorem lexemes?_next {c : Char} {cs rest : List Char} {t : Lexeme} (hc : c ≠ ' ')
    (h : Lexeme.next? (c :: cs) = some (t, rest)) :
    lexemes? (c :: cs) = (lexemes? rest).map (t :: ·) := by
  rw [lexemes?, if_neg hc]
  split
  · rename_i hNone
    rw [h] at hNone
    cases hNone
  · rename_i hSome
    rw [h] at hSome
    cases hSome
    rfl

end RecordFilter.Sql
