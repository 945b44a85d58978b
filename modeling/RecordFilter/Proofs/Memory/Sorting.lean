import RecordFilter.Memory

/-!
# Sorting in memory

Lists are sorted by insertion, by merging, or by merging sorted runs. Each way gives a sorted
permutation as soon as the order is total and transitive on the elements at hand; nothing is asked
of it anywhere else.
-/

namespace RecordFilter

variable {α : Type} {le : α → α → Bool}

/-- The order is total and transitive on the elements of a list. -/
structure PreorderOn (le : α → α → Bool) (xs : List α) : Prop where
  total : ∀ a ∈ xs, ∀ b ∈ xs, le a b = true ∨ le b a = true
  trans : ∀ a ∈ xs, ∀ b ∈ xs, ∀ c ∈ xs, le a b = true → le b c = true → le a c = true

theorem PreorderOn.mono {xs ys : List α} (h : PreorderOn le xs) (hSubset : ∀ a ∈ ys, a ∈ xs) :
    PreorderOn le ys where
  total a ha b hb := h.total a (hSubset a ha) b (hSubset b hb)
  trans a ha b hb c hc := h.trans a (hSubset a ha) b (hSubset b hb) c (hSubset c hc)

theorem PreorderOn.of_map {β : Type} {le' : β → β → Bool} {f : α → β} {xs : List α}
    (h : PreorderOn le' (xs.map f)) (hLe : ∀ a ∈ xs, ∀ b ∈ xs, le a b = le' (f a) (f b)) :
    PreorderOn le xs where
  total a ha b hb := by
    rw [hLe a ha b hb, hLe b hb a ha]
    exact h.total _ (List.mem_map_of_mem ha) _ (List.mem_map_of_mem hb)
  trans a ha b hb c hc := by
    rw [hLe a ha b hb, hLe b hb c hc, hLe a ha c hc]
    exact h.trans _ (List.mem_map_of_mem ha) _ (List.mem_map_of_mem hb) _ (List.mem_map_of_mem hc)

theorem mem_moveForward {x y : α} {before : List α} :
    y ∈ moveForward le x before ↔ y = x ∨ y ∈ before := by
  rw [(moveForward_perm le x before).mem_iff, List.mem_cons]

/-- The nearest element comes first in `before`, so the list in order is its reverse. -/
theorem pairwise_moveForward {x : α} {before : List α} (hOrder : PreorderOn le (x :: before))
    (hBefore : before.Pairwise fun a b => le b a = true) :
    (moveForward le x before).Pairwise fun a b => le b a = true := by
  induction before with
  | nil => exact List.pairwise_singleton ..
  | cons y before ih =>
    obtain ⟨hFirst, hRest⟩ := List.pairwise_cons.mp hBefore
    rw [moveForward]
    split
    · rename_i hyx
      refine List.pairwise_cons.mpr ⟨?_, hBefore⟩
      intro z hz
      rcases List.mem_cons.mp hz with rfl | hz
      · exact hyx
      · exact hOrder.trans z (by simp [hz]) y (by simp) x (by simp) (hFirst z hz) hyx
    · rename_i hyx
      have hxy : le x y = true :=
        (hOrder.total x (by simp) y (by simp)).resolve_right hyx
      refine List.pairwise_cons.mpr ⟨?_, ih (hOrder.mono ?_) hRest⟩
      · intro z hz
        rcases mem_moveForward.mp hz with rfl | hz
        · exact hxy
        · exact hFirst z hz
      · intro z hz
        rcases List.mem_cons.mp hz with rfl | hz
        · exact List.mem_cons_self
        · exact List.mem_cons_of_mem _ (List.mem_cons_of_mem _ hz)

theorem pairwise_foldl_moveForward {xs sorted : List α} (hOrder : PreorderOn le (xs ++ sorted))
    (hSorted : sorted.Pairwise fun a b => le b a = true) :
    (xs.foldl (fun sorted x => moveForward le x sorted) sorted).Pairwise
      fun a b => le b a = true := by
  induction xs generalizing sorted with
  | nil => exact hSorted
  | cons x xs ih =>
    refine ih (hOrder.mono ?_) (pairwise_moveForward (hOrder.mono ?_) hSorted)
    · intro z hz
      rcases List.mem_append.mp hz with hz | hz
      · simp [hz]
      · rcases mem_moveForward.mp hz with rfl | hz
        · simp
        · simp [hz]
    · intro z hz
      rcases List.mem_cons.mp hz with rfl | hz
      · simp
      · simp [hz]

theorem pairwise_insertionSort {xs : List α} (hOrder : PreorderOn le xs) :
    (insertionSort le xs).Pairwise fun a b => le a b = true := by
  rw [insertionSort, List.pairwise_reverse]
  exact pairwise_foldl_moveForward (hOrder.mono fun z hz => by simpa using hz) .nil

section
variable {xs ys : List α}

def elementsOf (all xs : List α) (h : ∀ a ∈ xs, a ∈ all) : List { a // a ∈ all } :=
  xs.attachWith (· ∈ all) h

theorem map_elementsOf {all : List α} (h : ∀ a ∈ xs, a ∈ all) :
    (elementsOf all xs h).map Subtype.val = xs :=
  List.attachWith_map_subtype_val h

def onElements (le : α → α → Bool) (all : List α) (a b : { a // a ∈ all }) : Bool := le a.1 b.1

theorem PreorderOn.onElements_total {all : List α} (h : PreorderOn le all) (a b : { a // a ∈ all }) :
    onElements le all a b || onElements le all b a :=
  Bool.or_eq_true_iff.mpr (h.total a a.2 b b.2)

theorem PreorderOn.onElements_trans {all : List α} (h : PreorderOn le all)
    (a b c : { a // a ∈ all }) (hab : onElements le all a b) (hbc : onElements le all b c) :
    onElements le all a c :=
  h.trans a a.2 b b.2 c c.2 hab hbc

theorem pairwise_mergeSort_of_preorderOn (hOrder : PreorderOn le xs) :
    (xs.mergeSort le).Pairwise fun a b => le a b = true := by
  let elements := elementsOf xs xs fun _ h => h
  have hMap : (elements.mergeSort (onElements le xs)).map Subtype.val = xs.mergeSort le := by
    refine (List.map_mergeSort (s := le) fun _ _ _ _ => rfl).trans ?_
    rw [map_elementsOf]
  rw [← hMap, List.pairwise_map]
  exact List.pairwise_mergeSort hOrder.onElements_trans hOrder.onElements_total _

theorem pairwise_merge_of_preorderOn (hOrder : PreorderOn le (xs ++ ys))
    (hx : xs.Pairwise fun a b => le a b = true) (hy : ys.Pairwise fun a b => le a b = true) :
    (xs.merge ys le).Pairwise fun a b => le a b = true := by
  let left := elementsOf (xs ++ ys) xs fun _ => List.mem_append_left ys
  let right := elementsOf (xs ++ ys) ys fun _ => List.mem_append_right xs
  have hLeft : left.map Subtype.val = xs := map_elementsOf _
  have hRight : right.map Subtype.val = ys := map_elementsOf _
  have hMap : (left.merge right (onElements le (xs ++ ys))).map Subtype.val = xs.merge ys le := by
    refine (List.map_merge (s := le) fun _ _ _ _ => rfl).trans ?_
    rw [hLeft, hRight]
  rw [← hMap, List.pairwise_map]
  refine List.pairwise_merge hOrder.onElements_trans hOrder.onElements_total _ _ ?_ ?_
  · rw [← hLeft, List.pairwise_map] at hx
    exact hx
  · rw [← hRight, List.pairwise_map] at hy
    exact hy

end

namespace MemoryEvaluator

theorem sortRuns_perm (runs : List (List α)) : (sortRuns le runs).Perm runs.flatten := by
  induction runs with
  | nil => exact .refl _
  | cons run runs ih =>
    rw [List.flatten_cons]
    exact (List.merge_perm_append le).trans ((List.mergeSort_perm run le).append ih)

theorem pairwise_sortRuns {runs : List (List α)} (hOrder : PreorderOn le runs.flatten) :
    (sortRuns le runs).Pairwise fun a b => le a b = true := by
  induction runs with
  | nil => exact .nil
  | cons run runs ih =>
    rw [List.flatten_cons] at hOrder
    have hRun : PreorderOn le run := hOrder.mono fun _ => List.mem_append_left _
    have hRest : PreorderOn le runs.flatten := hOrder.mono fun _ => List.mem_append_right _
    refine pairwise_merge_of_preorderOn (hOrder.mono ?_) (pairwise_mergeSort_of_preorderOn hRun)
      (ih hRest)
    intro a ha
    exact (((List.mergeSort_perm run le).append (sortRuns_perm runs)).mem_iff).mp ha

theorem sortStably_perm (e : MemoryEvaluator) (xs : List α) : (e.sortStably le xs).Perm xs := by
  unfold sortStably
  split
  · exact insertionSort_perm le xs
  · split
    · exact (sortRuns_perm _).trans (.of_eq (flatten_chunks _ xs))
    · exact List.mergeSort_perm xs le

theorem pairwise_sortStably (e : MemoryEvaluator) {xs : List α} (hOrder : PreorderOn le xs) :
    (e.sortStably le xs).Pairwise fun a b => le a b = true := by
  unfold sortStably
  split
  · exact pairwise_insertionSort hOrder
  · split
    · exact pairwise_sortRuns ((flatten_chunks _ xs).symm ▸ hOrder)
    · exact pairwise_mergeSort_of_preorderOn hOrder

end MemoryEvaluator

end RecordFilter
