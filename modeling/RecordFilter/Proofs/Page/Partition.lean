import Mathlib.Algebra.Order.Floor.Div
import RecordFilter.Proofs.Page

/-!
# Partition into pages

Requests of one size divide the rows among them: one page after the other, the pages give back all
rows, and every page past the last is empty. Nothing is lost where offsets stop at the largest word,
since no list reaches that far.
-/

namespace RecordFilter

variable {α : Type}

namespace Page

theorem drop_offset {p : Page} {xs : List α} (h : xs.length ≤ wordMax) :
    xs.drop p.offset = xs.drop (p.index * p.size) := by
  rw [List.drop_eq_drop_iff, offset, Nat.min_assoc, Nat.min_eq_right h]

theorem slice_eq {p : Page} {xs : List α} (h : xs.length ≤ wordMax) :
    p.slice xs = (xs.drop (p.index * p.size)).take p.size := by
  rw [slice_eq_take_drop h, drop_offset h]

theorem length_slice {p : Page} {xs : List α} (h : xs.length ≤ wordMax) :
    (p.slice xs).length = min p.size (xs.length - p.index * p.size) := by
  rw [slice_eq h, List.length_take, List.length_drop]

theorem flatMap_slice_range {xs : List α} (h : xs.length ≤ wordMax) (size count : Nat) :
    (List.range count).flatMap (fun i => (⟨i, size⟩ : Page).slice xs) = xs.take (count * size) := by
  induction count with
  | zero => rw [Nat.zero_mul]; rfl
  | succ count ih =>
    rw [List.range_succ, List.flatMap_append, ih, List.flatMap_singleton, slice_eq h,
      Nat.succ_mul, List.take_add]

end Page

namespace PageResult

/-- Page number `i` of so many pages, each of `size` rows but the last, out of `total` rows. -/
structure IsPage (r : PageResult α) (total size pages i : Nat) : Prop where
  totalSize_eq : r.totalSize = total
  totalPages_eq : r.totalPages = pages
  pageSize_eq : r.pageSize = size
  pageIndex_eq : r.pageIndex = i
  full : i + 1 < pages → r.records.length = size
  last : i + 1 = pages → 1 ≤ r.records.length ∧ r.records.length ≤ size
  past : pages ≤ i → r.records = []

variable {xs : List α} {p : Page}

theorem totalPages_le_iff (hSize : 0 < p.size) {n : Nat} :
    (ofSorted xs p).totalPages ≤ n ↔ xs.length ≤ n * p.size := by
  rw [Nat.mul_comm]
  exact ceilDiv_le_iff_le_mul hSize

theorem isLeast_totalPages (hSize : 0 < p.size) :
    IsLeast { n | xs.length ≤ n * p.size } (ofSorted xs p).totalPages :=
  ⟨(totalPages_le_iff hSize).mp (Nat.le_refl _), fun _ h => (totalPages_le_iff hSize).mpr h⟩

theorem isPage_ofSorted (hLength : xs.length ≤ wordMax) (hSize : 0 < p.size) :
    (ofSorted xs p).IsPage xs.length p.size (ofSorted xs p).totalPages p.index where
  totalSize_eq := rfl
  totalPages_eq := rfl
  pageSize_eq := rfl
  pageIndex_eq := rfl
  full h := by
    -- The next page still holds rows.
    have hNext := mt (totalPages_le_iff hSize).mpr (Nat.not_le_of_lt h)
    rw [Nat.succ_mul] at hNext
    refine (Page.length_slice hLength).trans (Nat.min_eq_left ?_)
    omega
  last h := by
    have hHere := mt (totalPages_le_iff hSize).mpr (Nat.not_le_of_lt (Nat.lt_of_succ_le h.le))
    have hRecords : (ofSorted xs p).records.length = _ := Page.length_slice hLength
    omega
  past h := by
    have hBefore := (totalPages_le_iff hSize).mp h
    change p.slice xs = []
    rw [Page.slice_eq hLength, List.drop_of_length_le hBefore, List.take_nil]

end PageResult

namespace PageRequest

def answer (r : PageRequest) (defaultSize : Nat) (rows : List α) : PageResult α :=
  .ofSorted rows (r.normalize defaultSize)

/-- Requests of one size, whatever their index, are answered with pages of one partition. -/
theorem answers_partition {xs : List α} (hLength : xs.length ≤ wordMax) (size : Int)
    (defaultSize : Nat) :
    ∃ pageSize pages : Nat, 1 ≤ pageSize ∧ (0 < size → (pageSize : Int) = size) ∧
      IsLeast { n | xs.length ≤ n * pageSize } pages ∧
      (∀ index : Int,
        (answer ⟨index, size⟩ defaultSize xs).IsPage xs.length pageSize pages index.toNat) ∧
      (List.range pages).flatMap (fun i : Nat => (answer ⟨i, size⟩ defaultSize xs).records) = xs := by
  let first := normalize ⟨0, size⟩ defaultSize
  have hSize : 0 < first.size := normalize_size_pos _ _
  have hPages : IsLeast { n | xs.length ≤ n * first.size }
      (PageResult.ofSorted xs first).totalPages := PageResult.isLeast_totalPages hSize
  refine ⟨first.size, (PageResult.ofSorted xs first).totalPages, hSize, ?_, hPages, ?_, ?_⟩
  · intro hPositive
    change ((if 0 < size then size.toNat else max defaultSize 1 : Nat) : Int) = size
    rw [if_pos hPositive, Int.toNat_of_nonneg (Int.le_of_lt hPositive)]
  · intro index
    exact PageResult.isPage_ofSorted (p := normalize ⟨index, size⟩ defaultSize) hLength hSize
  · refine (Page.flatMap_slice_range hLength first.size _).trans ?_
    exact List.take_of_length_le hPages.1

/-- Seven rows in pages of three, the last of one, and the furthest page there can be. -/
theorem answers_seven :
    (List.range 3).flatMap (fun i : Nat => (answer ⟨i, 0⟩ 3 "letters".toList).records) =
        "letters".toList ∧
      (answer ⟨2, 0⟩ 3 "letters".toList).records.length ≤ 3 ∧
      (answer ⟨2 ^ 63 - 1, 0⟩ 3 "letters".toList).records = [] := by
  have hLength : "letters".toList.length ≤ wordMax := by decide
  obtain ⟨pageSize, pages, -, -, -, hPage, hAll⟩ := answers_partition hLength 0 3
  have hPages : 3 = pages := (hPage 0).totalPages_eq
  have hPageSize : 3 = pageSize := (hPage 0).pageSize_eq
  subst hPages hPageSize
  refine ⟨hAll, ((hPage 2).last rfl).2, (hPage (2 ^ 63 - 1)).past ?_⟩
  decide

end PageRequest

end RecordFilter
