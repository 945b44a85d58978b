import Mathlib.Data.List.Basic
import RecordFilter.Proofs.Memory.Sorting

/-!
# Places of records

Matching records are found, sorted and moved by their places in the input. However the input is
split, the places are those of the matching records in input order, and each is taken once.
-/

namespace RecordFilter.MemoryEvaluator

variable {ρ : Type} {pass : ρ → Bool}

theorem placesFrom_append (base : Nat) (xs ys : List ρ) :
    placesFrom pass base (xs ++ ys) =
      placesFrom pass base xs ++ placesFrom pass (base + xs.length) ys := by
  rw [placesFrom, List.zipIdx_append, List.filterMap_append]
  rfl

theorem chunkSize_pos (e : MemoryEvaluator) (n : Nat) : 0 < e.chunkSize n := Nat.le_max_right _ 1

/-- From piece number `k` on. -/
theorem flatMap_placesFrom_chunks (pass : ρ → Bool) {size : Nat} (hSize : 0 < size) (k : Nat)
    (xs : List ρ) :
    ((chunks size xs).zipIdx k).flatMap (fun (piece, k) => placesFrom pass (k * size) piece) =
      placesFrom pass (k * size) xs := by
  fun_induction chunks size xs generalizing k with
  | case1 => rfl
  | case2 x xs ih =>
    have hSplit : x :: xs = (x :: xs.take (size - 1)) ++ xs.drop (size - 1) := by simp
    rw [List.zipIdx_cons, List.flatMap_cons, ih, hSplit, placesFrom_append]
    -- Every piece but the last one is full, so the next starts where it ends.
    rcases Nat.lt_or_ge (size - 1) xs.length with hFull | hLast
    · have hStart : (k + 1) * size = k * size + (x :: xs.take (size - 1)).length := by
        rw [List.length_cons, List.length_take, Nat.min_eq_left (Nat.le_of_lt hFull),
          Nat.sub_add_cancel hSize, Nat.succ_mul]
      rw [hStart]
    · rw [List.drop_of_length_le hLast]
      rfl

theorem filterPlaces_eq (e : MemoryEvaluator) (xs : List ρ) :
    e.filterPlaces pass xs = placesFrom pass 0 xs := by
  rw [filterPlaces]
  split
  · have hPlaces := flatMap_placesFrom_chunks pass (e.chunkSize_pos xs.length) 0 xs
    rwa [Nat.zero_mul] at hPlaces
  · rfl

theorem placesFrom_cons (base : Nat) (x : ρ) (xs : List ρ) :
    placesFrom pass base (x :: xs) =
      if pass x then base :: placesFrom pass (base + 1) xs else placesFrom pass (base + 1) xs := by
  simp only [placesFrom, List.zipIdx_cons, List.filterMap_cons]
  cases pass x <;> rfl

/-- Behind the elements of `before`, the places are those from there on whose elements pass. -/
theorem placesFrom_eq_filter (before xs : List ρ) :
    placesFrom pass before.length xs =
      (List.range' before.length xs.length).filter fun i => (before ++ xs)[i]?.any pass := by
  induction xs generalizing before with
  | nil => rfl
  | cons x xs ih =>
    have hRest := ih (before ++ [x])
    rw [List.append_assoc, List.length_append] at hRest
    have hHere : (before ++ x :: xs)[before.length]?.any pass = pass x := by simp
    rw [placesFrom_cons, List.length_cons, List.range'_succ, List.filter_cons, hHere]
    exact congrArg (fun rest => if pass x then before.length :: rest else rest) hRest

theorem pairwise_placesFrom (before xs : List ρ) :
    (placesFrom pass before.length xs).Pairwise (· < ·) := by
  rw [placesFrom_eq_filter]
  exact List.Pairwise.filter _ List.pairwise_lt_range'

theorem map_getElem?_placesFrom (before xs : List ρ) :
    (placesFrom pass before.length xs).map (fun i => (before ++ xs)[i]?) =
      (xs.filter pass).map some := by
  induction xs generalizing before with
  | nil => rfl
  | cons x xs ih =>
    have hRest := ih (before ++ [x])
    rw [List.append_assoc, List.length_append] at hRest
    rw [placesFrom_cons]
    split
    · rename_i h
      rw [List.filter_cons_of_pos h, List.map_cons, List.map_cons, ← hRest]
      simp
    · rename_i h
      rw [List.filter_cons_of_neg h, ← hRest]
      rfl

/-- Distinct places are all found occupied. -/
theorem takeSlots_eq_filterMap {is : List Nat} (hNodup : is.Nodup) (slots : Array (Option ρ)) :
    takeSlots is slots = is.filterMap fun i => slots[i]?.join := by
  induction is generalizing slots with
  | nil => rfl
  | cons i is ih =>
    obtain ⟨hi, hRest⟩ := List.nodup_cons.mp hNodup
    rw [takeSlots]
    split
    · rename_i x hx
      rw [List.filterMap_cons, hx, ih hRest]
      refine congrArg (x :: ·) (List.filterMap_congr fun j hj => ?_)
      rw [Array.getElem?_setIfInBounds_ne]
      intro hij
      exact hi (hij ▸ hj)
    · rename_i hx
      rw [List.filterMap_cons, hx, ih hRest]

end RecordFilter.MemoryEvaluator
