import RecordFilter.Query.Basic
import RecordFilter.Schema.Resolver

/-!
# Compiling specifications

Every path of a specification is resolved and every filter compiled. Paths that do not resolve are
dropped or refused as the policy of the resolver has it; a bad operand always fails. The primary
key ends the sort keys unless it is one of them, so that the order leaves no ties between records.
Joins are kept once per alias, in the order in which they are first needed.
-/

namespace RecordFilter

variable {κ : Type}

/-- The joins whose alias is not among those seen, each alias once. -/
def newJoins (seen : List String) : List (JoinSpec κ) → List (JoinSpec κ)
  | [] => []
  | j :: js =>
    if seen.contains j.tableAlias then newJoins seen js
    else j :: newJoins (j.tableAlias :: seen) js

theorem tableAlias_notMem_of_mem_newJoins {seen : List String} {joins : List (JoinSpec κ)}
    {j : JoinSpec κ} (h : j ∈ newJoins seen joins) : j.tableAlias ∉ seen := by
  induction joins generalizing seen with
  | nil => simp [newJoins] at h
  | cons k ks ih =>
    rw [newJoins] at h
    split at h
    · exact ih h
    · rename_i hk
      rcases List.mem_cons.mp h with rfl | h
      · simpa using hk
      · exact fun hs => ih h (List.mem_cons_of_mem _ hs)

theorem nodup_tableAlias_newJoins (seen : List String) (joins : List (JoinSpec κ)) :
    ((newJoins seen joins).map (·.tableAlias)).Nodup := by
  induction joins generalizing seen with
  | nil => exact List.nodup_nil
  | cons k ks ih =>
    rw [newJoins]
    split
    · exact ih seen
    · refine List.nodup_cons.mpr ⟨?_, ih _⟩
      intro hm
      obtain ⟨j, hj, he⟩ := List.mem_map.mp hm
      exact tableAlias_notMem_of_mem_newJoins hj (he ▸ List.mem_cons_self)

def distinctJoins (joins : List (JoinSpec κ)) : List (JoinSpec κ) := newJoins [] joins

theorem nodup_tableAlias_distinctJoins (joins : List (JoinSpec κ)) :
    ((distinctJoins joins).map (·.tableAlias)).Nodup := nodup_tableAlias_newJoins [] joins

namespace Specification

variable (catalog : Catalog κ) (schema : RecordSchema κ)

def compileFilters : List FieldFilter → Resolving κ (List (CompiledFilter κ))
  | [] => return []
  | f :: fs => do
    match ← Resolver.resolve catalog schema f.field with
    | none => compileFilters fs
    | some field =>
      let condition ← (f.compile field.kind : Except FilterError CompiledCondition)
      return ⟨field, condition⟩ :: (← compileFilters fs)

def compileSort : List SortField → Resolving κ (List (SortKey κ))
  | [] => return []
  | s :: ss => do
    match ← Resolver.resolve catalog schema s.field with
    | none => compileSort ss
    | some field => return ⟨field, field.kind.dataType, s.direction⟩ :: (← compileSort ss)

def sortsBy (keys : List (SortKey κ)) (name : String) : Bool :=
  keys.any fun k => k.field.hops.isEmpty && k.field.leaf == name

/-- The ascending key on the primary key, unless the keys have it already. -/
def tieBreak (keys : List (SortKey κ)) : Resolving κ (List (SortKey κ)) := do
  match schema.primaryKeyField? with
  | none => return []
  | some f =>
    if sortsBy keys f.name then return []
    else match ← Resolver.resolve catalog schema f.name with
      | none => return []
      | some field => return [⟨field, field.kind.dataType, .asc⟩]

def compilePreload : List String → Resolving κ (List (JoinSpec κ))
  | [] => return []
  | path :: paths => do
    match ← Resolver.resolveRelation catalog schema path with
    | none => compilePreload paths
    | some joins => return joins ++ (← compilePreload paths)

/-- The query of a specification against a schema. The tie-break brings no joins of its own. -/
def compile (spec : Specification) : Resolving κ (CompiledQuery κ) := do
  let filters ← compileFilters catalog schema spec.filters
  let keys ← compileSort catalog schema spec.sort
  let last ← tieBreak catalog schema keys
  let preloads ← compilePreload catalog schema spec.preload
  let joins := filters.flatMap (·.field.joins) ++ keys.flatMap (·.field.joins) ++ preloads
  return { schema, logic := spec.logic, filters, sort := keys ++ last,
           joins := distinctJoins joins }

end Specification

end RecordFilter
