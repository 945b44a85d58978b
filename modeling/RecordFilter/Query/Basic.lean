import RecordFilter.Condition.Match
import RecordFilter.Schema.Path

/-!
# Compiled queries

A compiled query is a specification resolved against one schema: conditions on resolved fields,
sort keys, and the joins all of them need. Both backends work from it. Here is its meaning on
records: which of them match, and in which order they come.
-/

namespace RecordFilter

structure CompiledFilter (κ : Type) where
  field : ResolvedField κ
  condition : CompiledCondition
deriving DecidableEq

structure SortKey (κ : Type) where
  field : ResolvedField κ
  dataType : DataType
  direction : Direction
deriving DecidableEq

structure CompiledQuery (κ : Type) where
  schema : RecordSchema κ
  logic : Logic
  filters : List (CompiledFilter κ)
  /-- The requested sort keys, and the primary key after them. -/
  sort : List (SortKey κ)
  /-- The joins of filters, sort keys and preloads, parents before children. -/
  joins : List (JoinSpec κ)
deriving DecidableEq

variable {κ : Type}

def CompiledFilter.matchesRecord (f : CompiledFilter κ) (r : Record) : Bool :=
  f.condition.matchesValue (f.field.read r)

def SortKey.order (k : SortKey κ) (a b : Record) : Ordering :=
  k.dataType.order k.direction (k.field.read a) (k.field.read b)

def orderByKeys (keys : List (SortKey κ)) (a b : Record) : Ordering :=
  match keys with
  | [] => .eq
  | k :: ks => (k.order a b).then (orderByKeys ks a b)

namespace CompiledQuery

def matchesRecord (q : CompiledQuery κ) (r : Record) : Bool :=
  match q.logic with
  | .and => q.filters.all fun f => f.matchesRecord r
  | .or => q.filters.isEmpty || q.filters.any fun f => f.matchesRecord r

def order (q : CompiledQuery κ) (a b : Record) : Ordering := orderByKeys q.sort a b

theorem matchesRecord_of_filters_eq_nil {q : CompiledQuery κ} (h : q.filters = []) (r : Record) :
    q.matchesRecord r = true := by
  cases hl : q.logic <;> simp [matchesRecord, hl, h]

end CompiledQuery

end RecordFilter
