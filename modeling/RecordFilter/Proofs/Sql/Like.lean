import RecordFilter.Condition.Match
import RecordFilter.Sql.Lowering

/-!
# Text tests as LIKE patterns

An escaped needle is matched by itself alone, whatever it is made of. With `%` before it, behind it
or on both sides it is matched by the texts that end with it, start with it or contain it.
-/

namespace RecordFilter

def escapeChar (c : Char) : List Char := if c = '\\' || c = '%' || c = '_' then ['\\', c] else [c]

theorem toList_escapeLike (s : String) : (escapeLike s).toList = s.toList.flatMap escapeChar := by
  simp only [escapeLike, String.toList_ofList]
  rfl

theorem matchesLike_nil (cs : List Char) : matchesLike [] cs = cs.isEmpty := rfl

theorem matchesLike_percent (p cs : List Char) :
    matchesLike ('%' :: p) cs = anyEnd (matchesLike p) cs := rfl

theorem matchesLike_ordinary {e : Char} (hEscape : e ≠ '\\') (hAny : e ≠ '%') (hOne : e ≠ '_')
    (p : List Char) (cs : List Char) :
    matchesLike (e :: p) cs = match cs with
      | [] => false
      | c :: cs => c == e && matchesLike p cs := by
  rw [matchesLike.eq_def]
  split <;> rename_i h <;> cases h
  · exact absurd rfl hAny
  · exact absurd rfl hOne
  · exact absurd rfl hEscape
  · exact absurd rfl hEscape
  · rfl

theorem matchesLike_escapeChar (e : Char) (p cs : List Char) :
    matchesLike (escapeChar e ++ p) cs = match cs with
      | [] => false
      | c :: cs => c == e && matchesLike p cs := by
  unfold escapeChar
  split
  · rfl
  · rename_i h
    simp only [Bool.or_eq_true, decide_eq_true_eq, not_or] at h
    exact matchesLike_ordinary h.1.1 h.1.2 h.2 p cs

/-- An escaped needle matches where it stands; the rest of the pattern matches the rest. -/
theorem matchesLike_escape_append {needle p cs : List Char} :
    matchesLike (needle.flatMap escapeChar ++ p) cs ↔
      ∃ rest, cs = needle ++ rest ∧ matchesLike p rest := by
  induction needle generalizing cs with
  | nil => simp
  | cons e needle ih =>
    rw [List.flatMap_cons, List.append_assoc, matchesLike_escapeChar]
    cases cs with
    | nil => simp
    | cons c cs =>
      simp only [Bool.and_eq_true, beq_iff_eq, ih, List.cons_append, List.cons.injEq]
      constructor
      · rintro ⟨rfl, rest, rfl, h⟩
        exact ⟨rest, ⟨rfl, rfl⟩, h⟩
      · rintro ⟨rest, ⟨rfl, rfl⟩, h⟩
        exact ⟨rfl, rest, rfl, h⟩

theorem matchesLike_any (cs : List Char) : matchesLike ['%'] cs := by
  rw [matchesLike_percent, anyEnd_iff]
  exact ⟨[], List.nil_suffix, rfl⟩

theorem matchesLike_startsWith {needle cs : List Char} :
    matchesLike (needle.flatMap escapeChar ++ ['%']) cs ↔ needle <+: cs := by
  rw [matchesLike_escape_append]
  constructor
  · rintro ⟨rest, rfl, -⟩
    exact List.prefix_append ..
  · rintro ⟨rest, rfl⟩
    exact ⟨rest, rfl, matchesLike_any rest⟩

theorem matchesLike_escape {needle cs : List Char} :
    matchesLike (needle.flatMap escapeChar) cs ↔ cs = needle := by
  rw [← List.append_nil (needle.flatMap escapeChar), matchesLike_escape_append]
  simp [matchesLike_nil]

theorem matchesLike_endsWith {needle cs : List Char} :
    matchesLike ('%' :: needle.flatMap escapeChar) cs ↔ needle <:+ cs := by
  rw [matchesLike_percent, anyEnd_iff]
  constructor
  · rintro ⟨rest, hEnd, h⟩
    exact matchesLike_escape.mp h ▸ hEnd
  · intro h
    exact ⟨needle, h, matchesLike_escape.mpr rfl⟩

theorem matchesLike_contains {needle cs : List Char} :
    matchesLike ('%' :: (needle.flatMap escapeChar ++ ['%'])) cs ↔ needle <:+: cs := by
  rw [matchesLike_percent, anyEnd_iff]
  constructor
  · rintro ⟨rest, hEnd, h⟩
    exact (matchesLike_startsWith.mp h).isInfix.trans hEnd.isInfix
  · intro h
    obtain ⟨rest, hStart, hEnd⟩ := List.infix_iff_prefix_suffix.mp h
    exact ⟨rest, hEnd, matchesLike_startsWith.mpr hStart⟩

/-- The pattern of a test other than equality stands for the test. -/
theorem matchesLike_pattern {test : TextTest} (hTest : test ≠ .equals) (needle : String)
    (cs : List Char) :
    matchesLike (test.pattern needle).toList cs = test.holds needle.toList cs := by
  rw [Bool.eq_iff_iff]
  cases test with
  | equals => exact absurd rfl hTest
  | contains =>
    simp only [TextTest.pattern, String.toList_append, toList_escapeLike, TextTest.holds,
      Text.occursIn_iff]
    exact matchesLike_contains
  | startsWith =>
    simp only [TextTest.pattern, String.toList_append, toList_escapeLike, TextTest.holds,
      List.isPrefixOf_iff_prefix]
    exact matchesLike_startsWith
  | endsWith =>
    simp only [TextTest.pattern, String.toList_append, toList_escapeLike, TextTest.holds,
      List.isSuffixOf_iff_suffix]
    exact matchesLike_endsWith

end RecordFilter
