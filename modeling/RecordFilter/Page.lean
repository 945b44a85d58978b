import RecordFilter.Power

/-!
# Pages

A page request is normalized once, with the same rule on every path: a negative index is the first
page, a size below one is the default size, which is itself at least one. The offset of a page
stops at the largest 64-bit word. A page past the end is empty.
-/

namespace RecordFilter

def wordMax : Nat := 2 ^ 64 - 1

structure PageRequest where
  /-- Counted from 0. -/
  index : Int := 0
  size : Int := 0
deriving DecidableEq

structure Page where
  index : Nat
  size : Nat
deriving DecidableEq

def PageRequest.normalize (r : PageRequest) (defaultSize : Nat) : Page :=
  { index := r.index.toNat
    size := if 0 < r.size then r.size.toNat else max defaultSize 1 }

theorem PageRequest.normalize_size_pos (r : PageRequest) (defaultSize : Nat) :
    0 < (r.normalize defaultSize).size := by
  simp only [normalize]
  split <;> omega

namespace Page

def offset (p : Page) : Nat := min (p.index * p.size) wordMax

/-- The first row of the page and the row after its last, among so many rows. -/
def bounds (p : Page) (total : Nat) : Nat × Nat :=
  let start := min p.offset total
  (start, min (min (start + p.size) wordMax) total)

/-- Cuts off the rows behind the page, then splits off the page. -/
def slice {α : Type} (p : Page) (rows : List α) : List α :=
  let (start, stop) := p.bounds rows.length
  (rows.take stop).drop start

def window {α : Type} (p : Page) (rows : List α) : List α :=
  let (start, stop) := p.bounds rows.length
  rows.extract start stop

end Page

structure PageResult (α : Type) where
  records : List α
  totalSize : Nat
  totalPages : Nat
  pageIndex : Nat
  pageSize : Nat
deriving DecidableEq

namespace PageResult

def ofPage {α : Type} (records : List α) (totalSize : Nat) (p : Page) : PageResult α :=
  { records
    totalSize
    totalPages := (totalSize + p.size - 1) / p.size
    pageIndex := p.index
    pageSize := p.size }

def ofSorted {α : Type} (sorted : List α) (p : Page) : PageResult α :=
  ofPage (p.slice sorted) sorted.length p

def map {α β : Type} (f : α → β) (r : PageResult α) : PageResult β :=
  { records := r.records.map f
    totalSize := r.totalSize
    totalPages := r.totalPages
    pageIndex := r.pageIndex
    pageSize := r.pageSize }

theorem map_ofPage {α β : Type} (f : α → β) (records : List α) (n : Nat) (p : Page) :
    (ofPage records n p).map f = ofPage (records.map f) n p := rfl

end PageResult

end RecordFilter
