import RecordFilter.Proofs.Condition.Rendered
import RecordFilter.Proofs.Sql.Pattern
import RecordFilter.Proofs.Text.Fold

/-!
# Text filters

A text filter is asked in memory by a search in the folded text and in a database by a pattern with
the needle escaped in it, or by equality with the needle as it is. Both are the same test on the
folded texts, and folding forgets the case of ASCII letters and nothing else, so neither side tells
texts apart that differ in that case alone.
-/

namespace RecordFilter

open Sql

namespace TextTest

def mode : TextTest → Mode
  | equals => .equal
  | contains => .contains
  | startsWith => .startsWith
  | endsWith => .endsWith

def filter (test : TextTest) (field needle : String) : FieldFilter :=
  { field, mode := test.mode, dataType := .text, value := some (.scalar (.text needle)) }

/-- How a text stands to a needle that it passes the test with. -/
def Relates (test : TextTest) (needle text : List Char) : Prop :=
  match test with
  | equals => text = needle
  | contains => needle <:+: text
  | startsWith => needle <+: text
  | endsWith => needle <:+ text

theorem holds_iff_relates {test : TextTest} {needle text : List Char} :
    test.holds needle text ↔ test.Relates needle text := by
  cases test with
  | equals => exact beq_iff_eq
  | contains => exact Text.occursIn_iff
  | startsWith => exact List.isPrefixOf_iff_prefix
  | endsWith => exact List.isSuffixOf_iff_suffix

def compiled (test : TextTest) (needle : String) : CompiledCondition :=
  ⟨.text, .identity, .text test (Text.fold needle) false⟩

section
variable (test : TextTest) (field needle : String)

theorem compile_filter : (test.filter field needle).compile .text = .ok (test.compiled needle) := by
  apply FieldFilter.compile_eq_ok_iff.mpr
  cases test <;> exact ⟨rfl, rfl, rfl, rfl⟩

theorem matchesValue_compiled_iff (s : String) :
    (test.compiled needle).matchesValue (.text s) ↔
      test.Relates (Text.fold needle).toList (Text.fold s).toList := by
  rw [← holds_iff_relates, ← Bool.bne_false (test.holds _ _)]
  rfl

def predicate : Predicate Unit :=
  match test with
  | equals => .compare .eq (.fold (.column ())) (.parameter 1)
  | _ => .like (.fold (.column ())) (.parameter 1)

/-- What is bound for the test: the pattern, or the folded needle as it is. -/
def bound : Parameters := ⟨[.text (test.pattern (Text.fold needle))]⟩

theorem predicate_compiled :
    (test.compiled needle).condition.predicate (.column ()) {} =
      (test.predicate, test.bound needle) := by
  cases test <;> rfl

theorem eval_predicate (s : String) :
    test.predicate.eval (fun _ => .text s) (test.bound needle) =
      some ((test.compiled needle).matchesValue (.text s)) := by
  have hPredicate := test.predicate_compiled needle
  have hBound : (test.bound needle).Extends
      ((test.compiled needle).condition.predicate (.column ()) {}).2 := by
    rw [hPredicate]
    exact .refl _
  have hEval : ((test.compiled needle).condition.predicate (.column ()) {}).1.eval
      (fun _ => .text s) (test.bound needle) =
        some ((test.compiled needle).condition.matchesProbe (.text s)) :=
    Condition.eval_predicate_text rfl hBound
  rw [hPredicate] at hEval
  exact hEval

theorem compiled_eq_of_sameButCase {needle' : String} (h : Text.SameButCase needle needle') :
    test.compiled needle' = test.compiled needle := by
  rw [compiled, compiled, Text.fold_eq_fold_iff.mpr h]

theorem matchesValue_eq_of_sameButCase {s s' : String} (h : Text.SameButCase s s') :
    (test.compiled needle).matchesValue (.text s') =
      (test.compiled needle).matchesValue (.text s) := by
  rw [Bool.eq_iff_iff, matchesValue_compiled_iff, matchesValue_compiled_iff,
    Text.fold_eq_fold_iff.mpr h]

end

/-- A text test compiles to a search in the folded text. Rendered, it is a match of the pattern or
an equality with the needle itself, which gives the same answer. The pattern is well formed, and a
change of case in the needle or in the text changes nothing on either side. -/
theorem pattern_agrees_with_search (test : TextTest) (field needle s : String) :
    let c := test.compiled needle
    let pattern := (test.pattern (Text.fold needle)).toList
    let text := (Text.fold s).toList
    (test.filter field needle).compile .text = .ok c ∧
      c.condition.predicate (.column ()) {} = (test.predicate, test.bound needle) ∧
      (c.matchesValue (.text s) ↔ test.Relates (Text.fold needle).toList text) ∧
      test.predicate.eval (fun _ => .text s) (test.bound needle) =
        some (c.matchesValue (.text s)) ∧
      (test ≠ .equals →
        escapeLike (Text.fold needle) = Text.replaceChar '_' "\\_"
          (Text.replaceChar '%' "\\%" (Text.replaceChar '\\' "\\\\" (Text.fold needle))) ∧
        escapesComplete pattern ∧
        (matchesLike pattern text ↔ LikeMatch pattern text) ∧
        (matchesLike pattern text ↔ c.matchesValue (.text s))) ∧
      (test = .equals → test.bound needle = ⟨[.text (Text.fold needle)]⟩ ∧
        (c.matchesValue (.text s) ↔ Text.fold s = Text.fold needle)) ∧
      ∀ needle' s', Text.SameButCase needle needle' → Text.SameButCase s s' →
        (test.filter field needle').compile .text = .ok c ∧
        c.matchesValue (.text s') = c.matchesValue (.text s) ∧
        test.bound needle' = test.bound needle ∧
        test.predicate.eval (fun _ => .text s') (test.bound needle') =
          test.predicate.eval (fun _ => .text s) (test.bound needle) := by
  intro c pattern text
  refine ⟨test.compile_filter field needle, test.predicate_compiled needle,
    test.matchesValue_compiled_iff needle s, test.eval_predicate needle s, ?_, ?_, ?_⟩
  · intro hTest
    refine ⟨escapeLike_eq_replaceChar _, escapesComplete_pattern hTest _,
      matchesLike_iff_likeMatch, ?_⟩
    rw [matchesLike_pattern hTest, holds_iff_relates, matchesValue_compiled_iff]
  · rintro rfl
    refine ⟨rfl, (matchesValue_compiled_iff .equals needle s).trans ?_⟩
    exact String.toList_inj
  · intro needle' s' hNeedle hText
    have hCompiled : test.compiled needle' = c := test.compiled_eq_of_sameButCase needle hNeedle
    have hMemory := test.matchesValue_eq_of_sameButCase needle hText
    refine ⟨hCompiled ▸ test.compile_filter field needle', hMemory, ?_, ?_⟩
    · rw [bound, bound, Text.fold_eq_fold_iff.mpr hNeedle]
    · rw [test.eval_predicate needle' s', test.eval_predicate needle s, hCompiled, hMemory]

end TextTest

namespace Labels

/-- A needle in which every character that means something in a pattern stands next to another. -/
def discount : String := "50%_\\%Off"

def price : String := "Now 50%_\\%OFF!"

theorem sameButCase_discount : Text.SameButCase discount "50%_\\%oFF" :=
  Text.fold_eq_fold_iff.mp (by decide)

theorem sameButCase_price : Text.SameButCase price "now 50%_\\%off!" :=
  Text.fold_eq_fold_iff.mp (by decide)

theorem discount_found_by_pattern :
    TextTest.contains ≠ .equals ∧
      Text.SameButCase discount "50%_\\%oFF" ∧ Text.SameButCase price "now 50%_\\%off!" ∧
      TextTest.contains.pattern (Text.fold discount) = "%50\\%\\_\\\\\\%off%" ∧
      matchesLike "%50\\%\\_\\\\\\%off%".toList (Text.fold price).toList ∧
      (TextTest.contains.compiled "50%_\\%oFF").matchesValue (.text "now 50%_\\%off!") := by
  have hPattern : TextTest.contains.pattern (Text.fold discount) = "%50\\%\\_\\\\\\%off%" := by
    decide
  have hFound : (TextTest.contains.compiled discount).matchesValue (.text price) := by
    decide
  obtain ⟨-, -, -, -, hSearch, -, hCase⟩ :=
    TextTest.contains.pattern_agrees_with_search "label" discount price
  obtain ⟨-, -, -, hMatches⟩ := hSearch nofun
  obtain ⟨-, hSame, -⟩ := hCase _ _ sameButCase_discount sameButCase_price
  refine ⟨nofun, sameButCase_discount, sameButCase_price, hPattern, ?_, ?_⟩
  · rw [← hPattern]
    exact hMatches.mpr hFound
  · rw [TextTest.compiled_eq_of_sameButCase _ _ sameButCase_discount, hSame, hFound]

end Labels

end RecordFilter
