import RecordFilter.Proofs.Sql.Like

/-!
# What LIKE patterns mean

A pattern stands for texts piece by piece: a run, one character, an escaped character, or a
character that means itself. The matcher, which tries every end of the text after a `%`, accepts
exactly these texts. A pattern is malformed if its last escape has nothing to escape; the patterns
of text tests never are. Escaping a text at once is escaping one character after the other, the
backslash first, since the escapes of the others bring backslashes of their own.
-/

namespace RecordFilter

/-- A pattern stands for a text. -/
inductive LikeMatch : List Char → List Char → Prop
  | nil : LikeMatch [] []
  | run {p cs : List Char} (skipped : List Char) : LikeMatch p cs →
      LikeMatch ('%' :: p) (skipped ++ cs)
  | one {p cs : List Char} (c : Char) : LikeMatch p cs → LikeMatch ('_' :: p) (c :: cs)
  | escaped {p cs : List Char} (c : Char) : LikeMatch p cs → LikeMatch ('\\' :: c :: p) (c :: cs)
  | itself {p cs : List Char} {c : Char} : c ≠ '\\' → c ≠ '%' → c ≠ '_' → LikeMatch p cs →
      LikeMatch (c :: p) (c :: cs)

theorem likeMatch_of_matchesLike : ∀ {p cs : List Char}, matchesLike p cs → LikeMatch p cs := by
  -- An escape takes up two characters of the pattern, so the induction is on its length.
  suffices hBound : ∀ (n : Nat) {p cs : List Char}, p.length ≤ n → matchesLike p cs →
      LikeMatch p cs from fun {p} => hBound p.length (Nat.le_refl _)
  intro n
  induction n with
  | zero =>
    intro p cs hLength h
    obtain rfl := List.length_eq_zero_iff.mp (Nat.le_zero.mp hLength)
    obtain rfl := List.isEmpty_iff.mp h
    exact .nil
  | succ n ih =>
    intro p cs hLength h
    rw [matchesLike.eq_def] at h
    split at h
    · obtain rfl := List.isEmpty_iff.mp h
      exact .nil
    · obtain ⟨rest, ⟨skipped, rfl⟩, hRest⟩ := anyEnd_iff.mp h
      exact .run skipped (ih (Nat.le_of_succ_le_succ hLength) hRest)
    · cases cs with
      | nil => cases h
      | cons c cs => exact .one c (ih (Nat.le_of_succ_le_succ hLength) h)
    · cases h
    · cases cs with
      | nil => cases h
      | cons c cs =>
        obtain ⟨hSame, hRest⟩ := Bool.and_eq_true_iff.mp h
        rw [beq_iff_eq.mp hSame]
        exact .escaped _ (ih (Nat.le_of_lt (Nat.le_of_succ_le_succ hLength)) hRest)
    · rename_i e p hRun hOne hLast hEscape
      have hItself : e ≠ '\\' := by
        intro he
        cases p with
        | nil => exact hLast he rfl
        | cons d p => exact hEscape d p he rfl
      cases cs with
      | nil => cases h
      | cons c cs =>
        obtain ⟨hSame, hRest⟩ := Bool.and_eq_true_iff.mp h
        rw [beq_iff_eq.mp hSame]
        exact .itself hItself hRun hOne (ih (Nat.le_of_succ_le_succ hLength) hRest)

theorem matchesLike_of_likeMatch {p cs : List Char} (h : LikeMatch p cs) : matchesLike p cs := by
  induction h with
  | nil => rfl
  | run skipped _ ih =>
    rw [matchesLike_percent, anyEnd_iff]
    exact ⟨_, List.suffix_append skipped _, ih⟩
  | one c _ ih => exact ih
  | escaped c _ ih => simpa [matchesLike] using ih
  | itself hEscape hRun hOne _ ih => simpa [matchesLike_ordinary hEscape hRun hOne] using ih

theorem matchesLike_iff_likeMatch {p cs : List Char} : matchesLike p cs ↔ LikeMatch p cs :=
  ⟨likeMatch_of_matchesLike, matchesLike_of_likeMatch⟩

def escapesComplete : List Char → Bool
  | [] => true
  | ['\\'] => false
  | '\\' :: _ :: p => escapesComplete p
  | _ :: p => escapesComplete p

theorem escapesComplete_ordinary {e : Char} (h : e ≠ '\\') (p : List Char) :
    escapesComplete (e :: p) = escapesComplete p := by
  rw [escapesComplete.eq_def]
  split <;> rename_i hPattern <;> cases hPattern
  · exact absurd rfl h
  · exact absurd rfl h
  · rfl

theorem escapesComplete_escape_append (needle p : List Char) :
    escapesComplete (needle.flatMap escapeChar ++ p) = escapesComplete p := by
  induction needle with
  | nil => rfl
  | cons e needle ih =>
    rw [List.flatMap_cons, List.append_assoc, escapeChar]
    split
    · exact ih
    · rename_i h
      simp only [Bool.or_eq_true, decide_eq_true_eq, not_or] at h
      exact (escapesComplete_ordinary h.1.1 _).trans ih

/-- The pattern of a test other than equality is well formed, whatever the needle. -/
theorem escapesComplete_pattern {test : TextTest} (hTest : test ≠ .equals) (needle : String) :
    escapesComplete (test.pattern needle).toList := by
  have hEscape (p : List Char) := escapesComplete_escape_append needle.toList p
  cases test with
  | equals => exact absurd rfl hTest
  | contains =>
    simp only [TextTest.pattern, String.toList_append, toList_escapeLike]
    exact hEscape ['%']
  | startsWith =>
    simp only [TextTest.pattern, String.toList_append, toList_escapeLike]
    exact hEscape ['%']
  | endsWith =>
    simp only [TextTest.pattern, String.toList_append, toList_escapeLike]
    exact List.append_nil (needle.toList.flatMap escapeChar) ▸ hEscape []

theorem escapeLike_eq_replaceChar (s : String) :
    escapeLike s = Text.replaceChar '_' "\\_"
      (Text.replaceChar '%' "\\%" (Text.replaceChar '\\' "\\\\" s)) := by
  simp only [escapeLike, Text.replaceChar, String.toList_ofList, List.flatMap_assoc]
  congr 2
  funext c
  by_cases hEscape : c = '\\'
  · subst hEscape
    rfl
  by_cases hRun : c = '%'
  · subst hRun
    rfl
  by_cases hOne : c = '_'
  · subst hOne
    rfl
  simp [hEscape, hRun, hOne]

end RecordFilter
