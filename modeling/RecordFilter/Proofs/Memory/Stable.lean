import RecordFilter.Proofs.Memory.Sorting

/-!
# Stable sorting

However a list is sorted, an element is only ever compared with one that stands behind it, and moves
behind it only if it must. Orders that agree on such pairs therefore sort alike, and ties among
places in increasing order are broken by the places themselves. That leaves one sorted list.
-/

namespace RecordFilter

variable {α : Type} {le le' : α → α → Bool}

/-- The orders agree on an element and any one behind it. -/
def AgreeAlong (le le' : α → α → Bool) (xs : List α) : Prop :=
  xs.Pairwise fun a b => le a b = le' a b

theorem moveForward_congr {x : α} {before : List α} (h : ∀ y ∈ before, le y x = le' y x) :
    moveForward le x before = moveForward le' x before := by
  induction before with
  | nil => rfl
  | cons y before ih =>
    rw [moveForward, moveForward, h y List.mem_cons_self,
      ih fun z hz => h z (List.mem_cons_of_mem _ hz)]

theorem foldl_moveForward_congr {xs sorted : List α} (h : AgreeAlong le le' xs)
    (hSorted : ∀ y ∈ sorted, ∀ x ∈ xs, le y x = le' y x) :
    xs.foldl (fun sorted x => moveForward le x sorted) sorted =
      xs.foldl (fun sorted x => moveForward le' x sorted) sorted := by
  induction xs generalizing sorted with
  | nil => rfl
  | cons x xs ih =>
    obtain ⟨hFirst, hRest⟩ := List.pairwise_cons.mp h
    rw [List.foldl_cons, List.foldl_cons,
      moveForward_congr fun y hy => hSorted y hy x List.mem_cons_self]
    -- What is sorted so far came from before the rest.
    refine ih hRest fun y hy z hz => ?_
    rcases mem_moveForward.mp hy with rfl | hy
    · exact hFirst z hz
    · exact hSorted y hy z (List.mem_cons_of_mem _ hz)

theorem insertionSort_congr {xs : List α} (h : AgreeAlong le le' xs) :
    insertionSort le xs = insertionSort le' xs := by
  rw [insertionSort, insertionSort, foldl_moveForward_congr h (List.forall_mem_nil _)]

theorem merge_congr {xs ys : List α} (h : ∀ x ∈ xs, ∀ y ∈ ys, le x y = le' x y) :
    xs.merge ys le = xs.merge ys le' := by
  have hMap := List.map_merge (f := id) h
  rwa [List.map_id, List.map_id, List.map_id] at hMap

theorem mergeSort_congr :
    ∀ (xs : List α), AgreeAlong le le' xs → xs.mergeSort le = xs.mergeSort le'
  | [], _ => by simp
  | [_], _ => by simp
  | a :: b :: xs, h => by
    rw [List.mergeSort, List.mergeSort]
    simp only [List.MergeSort.Internal.splitInTwo_fst, List.MergeSort.Internal.splitInTwo_snd]
    generalize hHalf : ((a :: b :: xs).length + 1) / 2 = half
    have hParts := h
    rw [← List.take_append_drop half (a :: b :: xs)] at hParts
    obtain ⟨hTake, hDrop, hAcross⟩ := List.pairwise_append.mp hParts
    rw [mergeSort_congr _ hTake, mergeSort_congr _ hDrop]
    -- Merging compares an element of the first half with one of the second only.
    refine merge_congr fun x hx y hy => hAcross x ?_ y ?_
    · exact List.mem_mergeSort.mp hx
    · exact List.mem_mergeSort.mp hy
termination_by xs => xs.length
decreasing_by
  · simp only [List.length_take, List.length_cons]; omega
  · simp only [List.length_drop, List.length_cons]; omega

namespace MemoryEvaluator

theorem sortRuns_congr {runs : List (List α)} (h : AgreeAlong le le' runs.flatten) :
    sortRuns le runs = sortRuns le' runs := by
  induction runs with
  | nil => rfl
  | cons run runs ih =>
    obtain ⟨hRun, hRest, hAcross⟩ := List.pairwise_append.mp h
    change (run.mergeSort le).merge (sortRuns le runs) le =
      (run.mergeSort le').merge (sortRuns le' runs) le'
    rw [mergeSort_congr _ hRun, ih hRest]
    refine merge_congr fun x hx y hy => hAcross x ?_ y ?_
    · exact List.mem_mergeSort.mp hx
    · exact (sortRuns_perm runs).mem_iff.mp hy

theorem sortStably_congr (e : MemoryEvaluator) {xs : List α} (h : AgreeAlong le le' xs) :
    e.sortStably le xs = e.sortStably le' xs := by
  unfold sortStably
  split
  · exact insertionSort_congr h
  · split
    · exact sortRuns_congr ((flatten_chunks _ xs).symm ▸ h)
    · exact mergeSort_congr _ h

end MemoryEvaluator

/-- The order of places in which a tie is decided by the places. -/
def breakTies (le : Nat → Nat → Bool) (i j : Nat) : Bool := le i j && (!le j i || i ≤ j)

section
variable {le : Nat → Nat → Bool} {is : List Nat} {i j : Nat}

theorem breakTies_iff : breakTies le i j = true ↔ le i j = true ∧ (le j i = true → i ≤ j) := by
  rw [breakTies, Bool.and_eq_true, Bool.or_eq_true, Bool.not_eq_true', decide_eq_true_eq]
  cases le j i <;> simp

theorem agreeAlong_breakTies (h : is.Pairwise (· < ·)) : AgreeAlong le (breakTies le) is := by
  refine h.imp fun hij => ?_
  rw [breakTies, decide_eq_true (Nat.le_of_lt hij), Bool.or_true, Bool.and_true]

theorem PreorderOn.breakTies (h : PreorderOn le is) : PreorderOn (breakTies le) is where
  total i hi j hj := by
    simp only [breakTies_iff]
    rcases h.total i hi j hj with hij | hji <;> rcases Nat.le_total i j with hLe | hLe <;> grind
  trans i hi j hj k hk hij hjk := by
    simp only [breakTies_iff] at hij hjk ⊢
    refine ⟨h.trans i hi j hj k hk hij.1 hjk.1, fun hki => ?_⟩
    -- All three are tied if the last may come before the first.
    have hji := h.trans j hj k hk i hi hjk.1 hki
    have hkj := h.trans k hk i hi j hj hki hij.1
    exact Nat.le_trans (hij.2 hji) (hjk.2 hkj)

/-- Places in increasing order are sorted in one way only. -/
theorem MemoryEvaluator.eq_sortStably_iff (e : MemoryEvaluator) (hPlaces : is.Pairwise (· < ·))
    (hOrder : PreorderOn le is) {sorted : List Nat} :
    sorted = e.sortStably le is ↔
      sorted.Perm is ∧ sorted.Pairwise fun i j => breakTies le i j = true := by
  have hPerm : (e.sortStably le is).Perm is := e.sortStably_perm is
  have hSorted : (e.sortStably le is).Pairwise fun i j => breakTies le i j = true := by
    rw [e.sortStably_congr (agreeAlong_breakTies hPlaces)]
    exact e.pairwise_sortStably hOrder.breakTies
  constructor
  · rintro rfl
    exact ⟨hPerm, hSorted⟩
  · rintro ⟨hPerm', hSorted'⟩
    refine (hPerm'.trans hPerm.symm).eq_of_pairwise ?_ hSorted' hSorted
    intro i j _ _ hij hji
    rw [breakTies_iff] at hij hji
    exact Nat.le_antisymm (hij.2 hji.1) (hji.2 hij.1)

end

end RecordFilter
