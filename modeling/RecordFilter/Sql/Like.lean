import RecordFilter.Text.Digits

/-!
# LIKE patterns

In a pattern `%` stands for any run of characters, `_` for any one character, and a backslash makes
the character after it stand for itself. `escapeLike` turns a text into the pattern that only that
text matches.
-/

namespace RecordFilter

def escapeLike (s : String) : String :=
  String.ofList (s.toList.flatMap fun c =>
    if c = '\\' || c = '%' || c = '_' then ['\\', c] else [c])

/-- Whether some end of the text, the text itself included, passes the test. -/
def anyEnd (test : List Char → Bool) : List Char → Bool
  | [] => test []
  | c :: cs => test (c :: cs) || anyEnd test cs

theorem anyEnd_iff {test : List Char → Bool} {cs : List Char} :
    anyEnd test cs ↔ ∃ suffix, suffix <:+ cs ∧ test suffix := by
  induction cs with
  | nil => simp [anyEnd]
  | cons c cs ih =>
    simp only [anyEnd, Bool.or_eq_true, ih, List.suffix_cons_iff]
    constructor
    · rintro (h | ⟨t, ht, h⟩)
      · exact ⟨_, .inl rfl, h⟩
      · exact ⟨t, .inr ht, h⟩
    · rintro ⟨t, rfl | ht, h⟩
      · exact .inl h
      · exact .inr ⟨t, ht, h⟩

/-- Whether the whole text matches a pattern. A backslash at the end of a pattern matches
nothing. -/
def matchesLike : List Char → List Char → Bool
  | [], cs => cs.isEmpty
  | '%' :: p, cs => anyEnd (matchesLike p) cs
  | '_' :: p, cs => match cs with
    | [] => false
    | _ :: cs => matchesLike p cs
  | ['\\'], _ => false
  | '\\' :: e :: p, cs => match cs with
    | [] => false
    | c :: cs => c == e && matchesLike p cs
  | e :: p, cs => match cs with
    | [] => false
    | c :: cs => c == e && matchesLike p cs

end RecordFilter
