import RecordFilter.Proofs.Memory.Places
import RecordFilter.Proofs.Page

/-!
# The answer in memory

Evaluation gives the matching records, sorted if the order allows it, and a page of them is the same
whether its records are looked up or moved out of the input. Records that are not tied are sorted in
one way only.
-/

namespace RecordFilter

namespace MemoryEvaluator

variable {κ ρ : Type} (e : MemoryEvaluator) (q : CompiledQuery κ) (view : ρ → Record)

def matching (records : List ρ) : List ρ := records.filter fun r => q.matchesRecord (view r)

def mayPrecede (a b : ρ) : Bool := q.order (view a) (view b) != .gt

theorem filterIndices_eq (records : List ρ) :
    e.filterIndices q view records =
      placesFrom (fun r => q.matchesRecord (view r)) 0 records :=
  e.filterPlaces_eq records

theorem map_getElem?_filterIndices (records : List ρ) :
    (e.filterIndices q view records).map (fun i => records[i]?) =
      (matching q view records).map some := by
  rw [filterIndices_eq]
  exact map_getElem?_placesFrom [] records

theorem sortedIndices_perm (records : List ρ) :
    (e.sortedIndices q view records).Perm (e.filterIndices q view records) :=
  e.sortStably_perm _

theorem nodup_sortedIndices (records : List ρ) : (e.sortedIndices q view records).Nodup := by
  rw [(e.sortedIndices_perm q view records).nodup_iff, filterIndices_eq]
  exact (pairwise_placesFrom [] records).imp Nat.ne_of_lt

theorem evaluate_eq (records : List ρ) :
    e.evaluate q view records =
      (e.sortedIndices q view records).filterMap fun i => records[i]? := by
  simp only [evaluate, List.getElem?_toArray]

theorem evaluate_perm (records : List ρ) :
    (e.evaluate q view records).Perm (matching q view records) := by
  have hMatching := congrArg (List.filterMap id) (map_getElem?_filterIndices e q view records)
  rw [List.filterMap_map, List.filterMap_map] at hMatching
  have hSome : List.filterMap (id ∘ some) (matching q view records) = matching q view records :=
    List.filterMap_some
  rw [evaluate_eq, ← hSome, ← hMatching]
  exact (e.sortedIndices_perm q view records).filterMap _

theorem exists_of_mem_filterIndices {records : List ρ} {i : Nat}
    (h : i ∈ e.filterIndices q view records) :
    ∃ a ∈ matching q view records, records[i]? = some a := by
  have hRecord : records[i]? ∈ (matching q view records).map some := by
    rw [← map_getElem?_filterIndices e]
    exact List.mem_map_of_mem h
  obtain ⟨a, ha, hSome⟩ := List.mem_map.mp hRecord
  exact ⟨a, ha, hSome.symm⟩

theorem map_getElem?_sortedIndices (records : List ρ) :
    (e.sortedIndices q view records).map (fun i => records[i]?) =
      (e.evaluate q view records).map some := by
  rw [evaluate_eq, List.map_filterMap_some_eq_filter_map_isSome, List.filter_eq_self.mpr]
  intro found h
  obtain ⟨i, hi, rfl⟩ := List.mem_map.mp h
  obtain ⟨a, -, ha⟩ := e.exists_of_mem_filterIndices q view
    ((e.sortedIndices_perm q view records).mem_iff.mp hi)
  rw [ha]
  rfl

theorem length_sortedIndices (records : List ρ) :
    (e.sortedIndices q view records).length = (e.evaluate q view records).length := by
  have hLengths := congrArg List.length (e.map_getElem?_sortedIndices q view records)
  rwa [List.length_map, List.length_map] at hLengths

def placeLe (records : List ρ) (i j : Nat) : Bool :=
  match records[i]?, records[j]? with
  | some a, some b => mayPrecede q view a b
  | _, _ => true

theorem sortedIndices_eq (records : List ρ) :
    e.sortedIndices q view records =
      e.sortStably (placeLe q view records) (e.filterIndices q view records) := by
  simp only [sortedIndices, List.getElem?_toArray]
  rfl

theorem preorderOn_placeLe {records : List ρ} (hOrder : PreorderOn (mayPrecede q view) records) :
    PreorderOn (placeLe q view records) (e.filterIndices q view records) where
  total i hi j hj := by
    obtain ⟨a, ha, hSome⟩ := e.exists_of_mem_filterIndices q view hi
    obtain ⟨b, hb, hSome'⟩ := e.exists_of_mem_filterIndices q view hj
    simp only [placeLe, hSome, hSome']
    exact hOrder.total a (List.mem_of_mem_filter ha) b (List.mem_of_mem_filter hb)
  trans i hi j hj k hk := by
    obtain ⟨a, ha, hSome⟩ := e.exists_of_mem_filterIndices q view hi
    obtain ⟨b, hb, hSome'⟩ := e.exists_of_mem_filterIndices q view hj
    obtain ⟨c, hc, hSome''⟩ := e.exists_of_mem_filterIndices q view hk
    simp only [placeLe, hSome, hSome', hSome'']
    exact hOrder.trans a (List.mem_of_mem_filter ha) b (List.mem_of_mem_filter hb) c
      (List.mem_of_mem_filter hc)

theorem pairwise_evaluate {records : List ρ} (hOrder : PreorderOn (mayPrecede q view) records) :
    (e.evaluate q view records).Pairwise fun a b => mayPrecede q view a b = true := by
  have hSorted := e.pairwise_sortStably (e.preorderOn_placeLe q view hOrder)
  rw [evaluate_eq, List.pairwise_filterMap, sortedIndices_eq]
  refine hSorted.imp ?_
  intro i j hij a ha b hb
  simpa only [placeLe, ha, hb] using hij

/-- A page is the same whether its records are looked up or moved out of their slots. -/
theorem paginateOwned_eq_paginate (records : List ρ) (p : Page) :
    e.paginateOwned q view records p = e.paginate q view records p := by
  have hNodup : (p.slice (e.sortedIndices q view records)).Nodup :=
    (e.nodup_sortedIndices q view records).sublist (p.slice_sublist _)
  have hRecords : takeSlots (p.slice (e.sortedIndices q view records))
      (records.map some).toArray = p.slice (e.evaluate q view records) := by
    have hSlot (i : Nat) : (records.map some).toArray[i]?.join = records[i]? := by
      rw [List.getElem?_toArray, List.getElem?_map]
      cases records[i]? <;> rfl
    have hFound := congrArg (List.filterMap id)
      (congrArg p.slice (e.map_getElem?_sortedIndices q view records))
    rw [Page.slice_map, Page.slice_map, List.filterMap_map, List.filterMap_map] at hFound
    rw [takeSlots_eq_filterMap hNodup]
    simp only [hSlot]
    exact hFound.trans List.filterMap_some
  rw [paginateOwned, paginate, PageResult.ofSorted, Page.window_eq_slice, hRecords,
    length_sortedIndices]

end MemoryEvaluator

open MemoryEvaluator

variable {κ ρ : Type}

/-- What the order of a query is on the records at hand if they can be sorted by it. -/
structure CompiledQuery.IsPreorderOn (q : CompiledQuery κ) (view : ρ → Record) (rows : List ρ) :
    Prop where
  swap : ∀ a ∈ rows, ∀ b ∈ rows, q.order (view b) (view a) = (q.order (view a) (view b)).swap
  trans : ∀ a ∈ rows, ∀ b ∈ rows, ∀ c ∈ rows, mayPrecede q view a b = true →
    mayPrecede q view b c = true → mayPrecede q view a c = true

section
variable {q : CompiledQuery κ} {view : ρ → Record} {rows : List ρ}

theorem CompiledQuery.IsPreorderOn.preorderOn (h : q.IsPreorderOn view rows) :
    PreorderOn (mayPrecede q view) rows where
  total a ha b hb := by
    simp only [mayPrecede, h.swap a ha b hb]
    cases q.order (view a) (view b) <;> decide
  trans := h.trans

theorem CompiledQuery.IsPreorderOn.eq_of_mayPrecede (h : q.IsPreorderOn view rows) {a b : ρ}
    (ha : a ∈ rows) (hb : b ∈ rows) (hab : mayPrecede q view a b = true)
    (hba : mayPrecede q view b a = true) :
    q.order (view a) (view b) = .eq ∧ q.order (view b) (view a) = .eq := by
  have hSwap := h.swap a ha b hb
  simp only [mayPrecede, hSwap] at hab hba
  rw [hSwap]
  cases hOrder : q.order (view a) (view b) with
  | lt =>
    rw [hOrder] at hba
    cases hba
  | eq => exact ⟨rfl, rfl⟩
  | gt =>
    rw [hOrder] at hab
    cases hab

/-- The matching rows are sorted in one way only if no two rows are tied. -/
theorem CompiledQuery.IsPreorderOn.sorted_unique (h : q.IsPreorderOn view rows)
    (hUntied : rows.Pairwise fun a b => q.order (view a) (view b) ≠ .eq) {xs ys : List ρ}
    (hxs : xs.Perm (matching q view rows)) (hys : ys.Perm (matching q view rows))
    (hSorted : xs.Pairwise fun a b => mayPrecede q view a b = true)
    (hSorted' : ys.Pairwise fun a b => mayPrecede q view a b = true) : xs = ys := by
  have hMem {a : ρ} (ha : a ∈ matching q view rows) : a ∈ rows := List.mem_of_mem_filter ha
  refine (hxs.trans hys.symm).eq_of_pairwise ?_ hSorted hSorted'
  intro a b ha hb hab hba
  have ha := hMem (hxs.subset ha)
  have hb := hMem (hys.subset hb)
  obtain ⟨hEq, hEq'⟩ := h.eq_of_mayPrecede ha hb hab hba
  have hTied : ∀ x ∈ rows, ∀ y ∈ rows,
      q.order (view x) (view y) = .eq → q.order (view y) (view x) = .eq → x = y :=
    List.Pairwise.forall_of_forall_of_flip (fun _ _ _ _ => rfl)
      (hUntied.imp fun hApart hEq _ => absurd hEq hApart)
      (hUntied.imp fun hApart _ hEq => absurd hEq hApart)
  exact hTied a ha b hb hEq hEq'

end

end RecordFilter
