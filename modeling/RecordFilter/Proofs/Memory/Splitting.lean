import RecordFilter.Proofs.Memory.Evaluate
import RecordFilter.Proofs.Memory.Stable
import RecordFilter.Proofs.Query.Preorder

/-!
# Splitting the work

Neither the size from which inputs are split nor the number of workers shows in an answer. The
places found are those of the matching records, in input order and each once; sorted they are in
the order of the query, tied records in input order.
-/

namespace RecordFilter

theorem CompiledQuery.isPreorderOn_of_readsOneEncoding {κ ρ : Type} {q : CompiledQuery κ}
    {view : ρ → Record} {records : List ρ}
    (h : ∀ k ∈ q.sort, k.dataType = .number → k.ReadsOneEncoding (records.map view)) :
    q.IsPreorderOn view records where
  swap _ ha _ hb := order_swap h (List.mem_map_of_mem ha) (List.mem_map_of_mem hb)
  trans _ ha _ hb _ hc := by
    simp only [MemoryEvaluator.mayPrecede, bne_iff_ne]
    exact order_trans h (List.mem_map_of_mem ha) (List.mem_map_of_mem hb)
      (List.mem_map_of_mem hc)

namespace MemoryEvaluator

variable {κ ρ : Type}

section
variable (q : CompiledQuery κ) (view : ρ → Record) (records : List ρ)

def matchingPlaces : List Nat :=
  (List.range records.length).filter fun i => records[i]?.any fun r => q.matchesRecord (view r)

/-- Whether the record at one place comes before the one at another: by the order of the query, or in
input order if they are tied. -/
def precedes (i j : Nat) : Bool :=
  match records[i]?, records[j]? with
  | some a, some b =>
    match q.order (view a) (view b) with
    | .lt => true
    | .eq => i < j
    | .gt => false
  | _, _ => false

theorem filterIndices_eq_matchingPlaces (e : MemoryEvaluator) :
    e.filterIndices q view records = matchingPlaces q view records := by
  rw [filterIndices_eq, matchingPlaces, List.range_eq_range']
  exact placesFrom_eq_filter [] records

theorem pairwise_matchingPlaces : (matchingPlaces q view records).Pairwise (· < ·) :=
  List.pairwise_lt_range.filter _

variable {q view records}

theorem breakTies_placeLe (hOrder : q.IsPreorderOn view records) {i j : Nat} {a b : ρ}
    (ha : records[i]? = some a) (hb : records[j]? = some b) (hij : i ≠ j) :
    breakTies (placeLe q view records) i j = precedes q view records i j := by
  have hSwap := hOrder.swap a (List.mem_of_getElem? ha) b (List.mem_of_getElem? hb)
  -- The places differ, so a tie is decided either way round by which is smaller.
  have hTied : decide (i ≤ j) = decide (i < j) := decide_eq_decide.mpr (by omega)
  simp only [breakTies, placeLe, precedes, ha, hb, mayPrecede, hSwap, hTied]
  cases q.order (view a) (view b) <;> rfl

theorem pairwise_breakTies_iff (hOrder : q.IsPreorderOn view records) {places : List Nat}
    (hPerm : places.Perm (matchingPlaces q view records)) :
    (places.Pairwise fun i j => breakTies (placeLe q view records) i j = true) ↔
      places.Pairwise fun i j => precedes q view records i j = true := by
  have hNodup : places.Nodup := hPerm.nodup_iff.mpr <|
    (pairwise_matchingPlaces q view records).imp Nat.ne_of_lt
  have hFound : ∀ i ∈ places, ∃ a, records[i]? = some a := by
    intro i hi
    have hRange := List.mem_range.mp (List.mem_of_mem_filter (hPerm.mem_iff.mp hi))
    exact ⟨_, List.getElem?_eq_getElem hRange⟩
  have hEach : ∀ i ∈ places, ∀ j ∈ places, i ≠ j →
      breakTies (placeLe q view records) i j = precedes q view records i j := by
    intro i hi j hj hij
    obtain ⟨a, ha⟩ := hFound i hi
    obtain ⟨b, hb⟩ := hFound j hj
    exact breakTies_placeLe hOrder ha hb hij
  constructor
  · intro hSorted
    refine (hSorted.and hNodup).imp_of_mem fun hi hj h => ?_
    exact hEach _ hi _ hj h.2 ▸ h.1
  · intro hSorted
    refine (hSorted.and hNodup).imp_of_mem fun hi hj h => ?_
    exact (hEach _ hi _ hj h.2).symm ▸ h.1

theorem eq_sortedIndices_iff (e : MemoryEvaluator) (hOrder : q.IsPreorderOn view records)
    {places : List Nat} :
    places = e.sortedIndices q view records ↔
      places.Perm (matchingPlaces q view records) ∧
        places.Pairwise fun i j => precedes q view records i j = true := by
  have hPreorder := e.preorderOn_placeLe q view hOrder.preorderOn
  rw [filterIndices_eq_matchingPlaces] at hPreorder
  rw [sortedIndices_eq, filterIndices_eq_matchingPlaces,
    e.eq_sortStably_iff (pairwise_matchingPlaces q view records) hPreorder]
  exact and_congr_right fun hPerm => pairwise_breakTies_iff hOrder hPerm

theorem sortedIndices_eq_sortedIndices (e e' : MemoryEvaluator)
    (hOrder : q.IsPreorderOn view records) :
    e'.sortedIndices q view records = e.sortedIndices q view records :=
  (e.eq_sortedIndices_iff hOrder).mpr ((e'.eq_sortedIndices_iff hOrder).mp rfl)

end

/-- The places found, and the sorted ones, are told by the query and the records alone. -/
theorem places_alike_however_split (e : MemoryEvaluator) (q : CompiledQuery κ)
    (view : ρ → Record) (records : List ρ) :
    e.filterIndices q view records = matchingPlaces q view records ∧
      (q.IsPreorderOn view records →
        (∀ e' : MemoryEvaluator,
          e'.sortedIndices q view records = e.sortedIndices q view records) ∧
        ∀ places : List Nat, places = e.sortedIndices q view records ↔
          places.Perm (matchingPlaces q view records) ∧
            places.Pairwise fun i j => precedes q view records i j = true) := by
  refine ⟨e.filterIndices_eq_matchingPlaces q view records, fun hOrder => ⟨fun e' => ?_, ?_⟩⟩
  · exact e.sortedIndices_eq_sortedIndices e' hOrder
  · intro places
    exact e.eq_sortedIndices_iff hOrder

end MemoryEvaluator

namespace Parcels

def parcel (n : Nat) : Record :=
  .mk [("size", .text (["small", "large", "medium"].getD (n % 3) "")),
    ("held", .text (if n % 10 = 0 then "yes" else "no"))] []

def size : ResolvedField Unit := ⟨"size", [], "size", .text, ⟨"parcels", "size"⟩, []⟩

def held : ResolvedField Unit := ⟨"held", [], "held", .text, ⟨"parcels", "held"⟩, []⟩

def bySize : CompiledQuery Unit :=
  { schema := { name := "Parcel", table := "parcels" }
    logic := .and
    filters := [⟨held, ⟨.text, .identity, .text .equals "no" false⟩⟩]
    sort := [⟨size, .text, .asc⟩]
    joins := [] }

/-- Splits the search among 24 parcels, but not the sorting of the 21 that are found. -/
def searching : MemoryEvaluator := { parallelMin := 22, workers := 5 }

/-- Splits both, in pieces of six and of five. -/
def splitting : MemoryEvaluator := { parallelMin := 0, workers := 4 }

def sorted : List Nat :=
  [1, 4, 7, 13, 16, 19, 22, 2, 5, 8, 11, 14, 17, 23, 3, 6, 9, 12, 15, 18, 21]

theorem isPreorderOn_bySize (parcels : List Nat) : bySize.IsPreorderOn parcel parcels := by
  refine CompiledQuery.isPreorderOn_of_readsOneEncoding ?_
  intro k hk hNumber
  rw [List.mem_singleton.mp hk] at hNumber
  cases hNumber

theorem parcels_by_size :
    splitting.filterIndices bySize parcel (List.range 24) =
      [1, 2, 3, 4, 5, 6, 7, 8, 9, 11, 12, 13, 14, 15, 16, 17, 18, 19, 21, 22, 23] ∧
    sorted = splitting.sortedIndices bySize parcel (List.range 24) ∧
    searching.sortedIndices bySize parcel (List.range 24) =
      splitting.sortedIndices bySize parcel (List.range 24) := by
  obtain ⟨hFound, hSorted⟩ :=
    splitting.places_alike_however_split bySize parcel (List.range 24)
  obtain ⟨hAlike, hUnique⟩ := hSorted (isPreorderOn_bySize _)
  refine ⟨hFound.trans (by decide +kernel), (hUnique sorted).mpr ⟨?_, ?_⟩, hAlike searching⟩
  · decide +kernel
  · decide +kernel

end Parcels

end RecordFilter
