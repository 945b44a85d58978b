/-!
# Sorting by insertion

Short lists are sorted by insertion. For a total preorder every stable sort gives the same list.
The order of numbers is none when integers beyond `2 ^ 53` meet reals, because it is then not
transitive on equal values; what counts in that case is how an element finds its place: it moves
forward past the elements just before it for as long as they are strictly greater.
-/

namespace RecordFilter

variable {α : Type}

/-- Moves `x` forward past the strictly greater elements before it, the nearest of which comes
first. -/
def moveForward (le : α → α → Bool) (x : α) : List α → List α
  | [] => [x]
  | y :: before => if le y x then x :: y :: before else y :: moveForward le x before

theorem moveForward_perm (le : α → α → Bool) (x : α) (before : List α) :
    (moveForward le x before).Perm (x :: before) := by
  induction before with
  | nil => exact .refl _
  | cons y before ih =>
    rw [moveForward]
    split
    · exact .refl _
    · exact (ih.cons y).trans (.swap x y before)

def insertionSort (le : α → α → Bool) (xs : List α) : List α :=
  (xs.foldl (fun sorted x => moveForward le x sorted) []).reverse

theorem foldl_moveForward_perm (le : α → α → Bool) (xs sorted : List α) :
    (xs.foldl (fun sorted x => moveForward le x sorted) sorted).Perm (xs ++ sorted) := by
  induction xs generalizing sorted with
  | nil => exact .refl _
  | cons x xs ih =>
    exact (ih _).trans (((moveForward_perm le x sorted).append_left xs).trans List.perm_middle)

theorem insertionSort_perm (le : α → α → Bool) (xs : List α) : (insertionSort le xs).Perm xs := by
  have h := foldl_moveForward_perm le xs []
  rw [List.append_nil] at h
  exact (List.reverse_perm _).trans h

end RecordFilter
