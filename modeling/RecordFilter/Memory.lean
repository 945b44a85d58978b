import RecordFilter.InsertionSort
import RecordFilter.Page
import RecordFilter.Query.Basic

/-!
# Evaluation in memory

Records are filtered, stably sorted and paged. From a minimal number of records on, the work is
split: the input is filtered in chunks whose matches are joined in input order, and sorted runs are
merged in order. Few records are sorted by insertion, split or not. Where the order is a total
preorder, splitting never shows in the answer.
-/

namespace RecordFilter

/-- The pieces of a list of a given length, the last one possibly shorter; size 0 counts as 1. -/
def chunks {α : Type} (size : Nat) (xs : List α) : List (List α) :=
  match xs with
  | [] => []
  | x :: xs => (x :: xs.take (size - 1)) :: chunks size (xs.drop (size - 1))
termination_by xs.length
decreasing_by simp only [List.length_drop, List.length_cons]; omega

theorem flatten_chunks {α : Type} (size : Nat) (xs : List α) : (chunks size xs).flatten = xs := by
  fun_induction chunks size xs with
  | case1 => rfl
  | case2 x xs ih => simp [ih]

structure MemoryEvaluator where
  /-- Shorter inputs are not split. -/
  parallelMin : Nat
  workers : Nat := 1

namespace MemoryEvaluator

variable {κ ρ : Type}

def threshold (e : MemoryEvaluator) : Nat := max e.parallelMin 1

def isParallel (e : MemoryEvaluator) (n : Nat) : Bool := e.threshold ≤ n

def chunkSize (e : MemoryEvaluator) (n : Nat) : Nat :=
  max (max (e.threshold / 4) (n / max e.workers 1)) 1

def placesFrom (pass : ρ → Bool) (base : Nat) (xs : List ρ) : List Nat :=
  (xs.zipIdx base).filterMap fun (x, i) => if pass x then some i else none

/-- The places in pieces of a given size; piece number `k` starts at place `k * size`. -/
def placesInChunks (pass : ρ → Bool) (size : Nat) (pieces : List (List ρ)) : List Nat :=
  pieces.zipIdx.flatMap fun (piece, k) => placesFrom pass (k * size) piece

def filterPlaces (e : MemoryEvaluator) (pass : ρ → Bool) (xs : List ρ) : List Nat :=
  if e.isParallel xs.length then
    let size := e.chunkSize xs.length
    placesInChunks pass size (chunks size xs)
  else placesFrom pass 0 xs

/-- A stable sort by many workers: runs are sorted one by one and merged in order. How the work is
split is left open. All that is relied on is that elements are permuted and, where the order is a
total preorder on them, sorted with equal ones kept in order. -/
def sortRuns (le : ρ → ρ → Bool) (runs : List (List ρ)) : List ρ :=
  runs.foldr (fun run sorted => (run.mergeSort le).merge sorted le) []

def shortLength : Nat := 20

def sortStably (e : MemoryEvaluator) (le : ρ → ρ → Bool) (xs : List ρ) : List ρ :=
  if xs.length ≤ shortLength then insertionSort le xs
  else if e.isParallel xs.length then sortRuns le (chunks (e.chunkSize xs.length) xs)
  else xs.mergeSort le

/-- Takes the elements at the given places out of their slots; an emptied slot yields nothing. -/
def takeSlots : List Nat → Array (Option ρ) → List ρ
  | [], _ => []
  | i :: is, slots => match slots[i]?.join with
    | some x => x :: takeSlots is (slots.setIfInBounds i none)
    | none => takeSlots is slots

section
variable (e : MemoryEvaluator) (q : CompiledQuery κ) (view : ρ → Record)

/-- The places of the matching records, in input order. What stands for a record is anything that
can be viewed as one. -/
def filterIndices (records : List ρ) : List Nat :=
  e.filterPlaces (fun r => q.matchesRecord (view r)) records

def sortedIndices (records : List ρ) : List Nat :=
  let slots := records.toArray
  let le (i j : Nat) : Bool := match slots[i]?, slots[j]? with
    | some a, some b => q.order (view a) (view b) != .gt
    | _, _ => true
  e.sortStably le (e.filterIndices q view records)

def evaluate (records : List ρ) : List ρ :=
  let slots := records.toArray
  (e.sortedIndices q view records).filterMap fun i => slots[i]?

def paginate (records : List ρ) (p : Page) : PageResult ρ := .ofSorted (e.evaluate q view records) p

/-- As `paginate`, but moving the records of the page out of the input. -/
def paginateOwned (records : List ρ) (p : Page) : PageResult ρ :=
  let sorted := e.sortedIndices q view records
  .ofPage (takeSlots (p.window sorted) (records.map some).toArray) sorted.length p

end

end MemoryEvaluator

end RecordFilter
