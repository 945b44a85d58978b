import RecordFilter.Proofs.Memory.Splitting

/-!
# Moving records out

A page that takes its records out of the input is cut from the sorted places, one that borrows them
from the sorted records. Each place of the page is taken once and holds a record until then, so
nothing is skipped, also where records are equal.
-/

namespace RecordFilter

namespace MemoryEvaluator

variable {κ ρ : Type} (e : MemoryEvaluator) (q : CompiledQuery κ) (view : ρ → Record)

theorem lt_length_of_mem_sortedIndices {records : List ρ} {i : Nat}
    (h : i ∈ e.sortedIndices q view records) : i < records.length := by
  have hFound := (e.sortedIndices_perm q view records).mem_iff.mp h
  rw [filterIndices_eq_matchingPlaces] at hFound
  exact List.mem_range.mp (List.mem_of_mem_filter hFound)

theorem map_some_paginate (records : List ρ) (p : Page) :
    (e.paginate q view records p).map some =
      (PageResult.ofSorted (e.sortedIndices q view records) p).map fun i => records[i]? := by
  rw [paginate, PageResult.ofSorted, PageResult.ofSorted, PageResult.map_ofPage,
    PageResult.map_ofPage, ← Page.slice_map, ← Page.slice_map, map_getElem?_sortedIndices,
    length_sortedIndices]

theorem evaluate_eq_evaluate (e' : MemoryEvaluator) {q : CompiledQuery κ} {view : ρ → Record}
    {records : List ρ} (hOrder : q.IsPreorderOn view records) :
    e'.evaluate q view records = e.evaluate q view records := by
  rw [evaluate_eq, evaluate_eq, e.sortedIndices_eq_sortedIndices e' hOrder]

/-- The places of a page are distinct and hold records. Moving these out or borrowing them gives
one page, and if the records can be sorted, the settings of the evaluators do not matter. -/
theorem owned_page_eq_borrowed_page (records : List ρ) (p : Page) :
    (p.window (e.sortedIndices q view records)).Nodup ∧
      (∀ i ∈ p.window (e.sortedIndices q view records), i < records.length) ∧
      (e.paginateOwned q view records p).map some =
        (PageResult.ofSorted (e.sortedIndices q view records) p).map (fun i => records[i]?) ∧
      e.paginateOwned q view records p = e.paginate q view records p ∧
      (q.IsPreorderOn view records → ∀ e' : MemoryEvaluator,
        e'.paginateOwned q view records p = e.paginate q view records p) := by
  have hSublist := p.slice_sublist (e.sortedIndices q view records)
  rw [Page.window_eq_slice]
  refine ⟨(e.nodup_sortedIndices q view records).sublist hSublist, ?_, ?_, ?_, ?_⟩
  · intro i hi
    exact e.lt_length_of_mem_sortedIndices q view (hSublist.subset hi)
  · rw [paginateOwned_eq_paginate, map_some_paginate]
  · exact e.paginateOwned_eq_paginate q view records p
  · intro hOrder e'
    rw [paginateOwned_eq_paginate, paginate, paginate, e.evaluate_eq_evaluate e' hOrder]

end MemoryEvaluator

namespace Parcels

/-- Parcels come more than once, and the second page of two is cut between equal ones. -/
theorem second_page_of_equal_parcels :
    splitting.paginateOwned bySize parcel [1, 4, 4, 10, 2, 4, 1] ⟨1, 2⟩ =
        searching.paginate bySize parcel [1, 4, 4, 10, 2, 4, 1] ⟨1, 2⟩ ∧
      ((searching.paginateOwned bySize parcel [1, 4, 4, 10, 2, 4, 1] ⟨1, 2⟩).map some).records =
        [some 4, some 4] := by
  obtain ⟨-, -, hPlaces, -, hAlike⟩ :=
    searching.owned_page_eq_borrowed_page bySize parcel [1, 4, 4, 10, 2, 4, 1] ⟨1, 2⟩
  refine ⟨hAlike (isPreorderOn_bySize _) splitting, ?_⟩
  rw [hPlaces]
  decide +kernel

end Parcels

end RecordFilter
