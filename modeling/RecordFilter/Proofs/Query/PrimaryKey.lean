import RecordFilter.Proofs.Query.Compiled
import RecordFilter.Proofs.Schema.Known

/-!
# The primary key among the sort keys

The sort keys of a compiled query hold the field that the resolver finds for the primary key,
either because it was asked for or as the tie-break at their end. Records that the query does not
tell apart therefore have the same primary key.
-/

namespace RecordFilter

open Resolving

variable {κ : Type} {catalog : Catalog κ} {schema : RecordSchema κ}

theorem orderByKeys_eq_eq {keys : List (SortKey κ)} {a b : Record}
    (h : orderByKeys keys a b = .eq) : ∀ k ∈ keys, k.order a b = .eq := by
  induction keys with
  | nil =>
    intro k hk
    cases hk
  | cons k keys ih =>
    rw [orderByKeys, Ordering.then_eq_eq] at h
    intro k' hk'
    rcases List.mem_cons.mp hk' with rfl | hk'
    · exact h.1
    · exact ih h.2 k' hk'

theorem Direction.apply_eq_eq {d : Direction} {o : Ordering} : d.apply o = .eq ↔ o = .eq := by
  cases d <;> cases o <;> decide

theorem DataType.order_asc_eq_eq {t : DataType} {d : Direction} {a b : Value}
    (h : t.order d a b = .eq) : t.order .asc a b = .eq := by
  unfold order at h ⊢
  split at h
  · exact Direction.apply_eq_eq.mp h
  · cases h
  · cases h
  · rfl

def ResolvedField.order (f : ResolvedField κ) (a b : Record) : Ordering :=
  f.kind.dataType.order .asc (f.read a) (f.read b)

namespace Resolver

/-- A resolver that some requests leave behind and that resolves a name to a field. -/
structure Finds (catalog : Catalog κ) (schema : RecordSchema κ) (name : String)
    (field : ResolvedField κ) (r : Resolver κ) : Prop where
  reachable : r.Reachable catalog
  resolve_eq : ((resolve catalog schema name).outcome r).1 = .ok (some field)

theorem preserves_resolve_finds {name : String} {field : ResolvedField κ} (path : String) :
    Preserves (Finds catalog schema name field) (resolve catalog schema path) := by
  intro r h
  refine ⟨h.reachable.resolved schema path, ?_⟩
  have hFound := h.resolve_eq
  rcases outcome_resolve_snd catalog schema r path with
    hSame | ⟨found, hAbsent, hLookup, hRemembered⟩
  · rw [hSame]
    exact hFound
  rw [hRemembered]
  by_cases hPath : name = path
  · subst hPath
    rw [outcome_resolve, hAbsent, hLookup] at hFound
    rw [outcome_resolve, remember, List.lookup_cons, beq_self_eq_true]
    exact hFound
  · have hKey : (key schema name == key schema path) = false :=
      beq_false_of_ne fun hEq => hPath (congrArg ResolverKey.path hEq)
    rw [outcome_resolve] at hFound ⊢
    rw [remember, List.lookup_cons, hKey]
    cases hCached : r.cache.lookup (key schema name) with
    | some cached =>
      rw [hCached] at hFound
      exact hFound
    | none =>
      rw [hCached] at hFound
      have hLookup : Resolver.lookup catalog { r with cache := (key schema path, found) :: r.cache }
          schema name = r.lookup catalog schema name := rfl
      simp only [hLookup]
      revert hFound
      rcases r.lookup catalog schema name with e | _ | field' <;> exact id

/-- A field of the base record is resolved by its name alone. -/
theorem Finds.eq_of_resolve {f : FieldDef} {field found : ResolvedField κ} {r r' : Resolver κ}
    (h : r.Finds catalog schema f.name field) {path : String}
    (hResolve : (resolve catalog schema path).outcome r = (.ok (some found), r'))
    (hHops : found.hops = []) (hLeaf : found.leaf = f.name) : found = field := by
  obtain ⟨s, -, hField⟩ := h.reachable.exists_fieldAt?_of_resolve hResolve
  have hPath : path = f.name := (s.path_eq_leaf_of_hops_eq_nil hField hHops).trans hLeaf
  have hFound := h.resolve_eq
  rw [← hPath, hResolve] at hFound
  cases hFound
  rfl

/-- The resolver finds the field for the primary key of the schema. -/
def FindsPrimaryKey (catalog : Catalog κ) (schema : RecordSchema κ) (key : ResolvedField κ)
    (r : Resolver κ) : Prop :=
  ∃ f, schema.primaryKeyField? = some f ∧ r.Finds catalog schema f.name key

end Resolver

namespace Specification

theorem exists_base_key_of_sortsBy {keys : List (SortKey κ)} {name : String}
    (h : sortsBy keys name = true) :
    ∃ k ∈ keys, k.field.hops = [] ∧ k.field.leaf = name := by
  obtain ⟨k, hk, hBoth⟩ := List.any_eq_true.mp h
  obtain ⟨hHops, hLeaf⟩ := Bool.and_eq_true_iff.mp hBoth
  exact ⟨k, hk, List.isEmpty_iff.mp hHops, beq_iff_eq.mp hLeaf⟩

/-- The primary key is among the keys asked for, or what it is resolved to is the tie-break. -/
theorem exists_base_key_or_resolved_of_tieBreak {f : FieldDef} {keys last : List (SortKey κ)}
    {r r' : Resolver κ} (hPrimary : schema.primaryKeyField? = some f)
    (h : (tieBreak catalog schema keys).outcome r = (.ok last, r')) :
    (∃ k ∈ keys, k.field.hops = [] ∧ k.field.leaf = f.name) ∨
      ∃ found s, (Resolver.resolve catalog schema f.name).outcome r = (.ok found, s) ∧
        last = (found.map fun field => ⟨field, field.kind.dataType, .asc⟩).toList := by
  simp only [tieBreak, hPrimary] at h
  split at h
  · rename_i hSorts
    exact .inl (exists_base_key_of_sortsBy hSorts)
  · obtain ⟨found, s, hFound, h⟩ := outcome_bind_eq_ok.mp h
    refine .inr ⟨found, s, hFound, ?_⟩
    cases found with
    | none => exact (outcome_pure_eq_ok.mp h).1.symm
    | some field => exact (outcome_pure_eq_ok.mp h).1.symm

section
variable {spec : Specification} {q : CompiledQuery κ} {r r' : Resolver κ} {key : ResolvedField κ}
  (hKey : r.FindsPrimaryKey catalog schema key)
  (h : (spec.compile catalog schema).outcome r = (.ok q, r'))
include hKey h

theorem exists_key_of_compile : ∃ k ∈ q.sort, k.field = key := by
  obtain ⟨f, hPrimary, hFinds⟩ := hKey
  have hResolve : ∀ path, Preserves (Resolver.Finds catalog schema f.name key)
      (Resolver.resolve catalog schema path) := Resolver.preserves_resolve_finds
  obtain ⟨filters, keys, last, preloads, r₁, r₂, r₃, hFirst, hSecond, -, hKeys, hLast, -, rfl⟩ :=
    of_compile_of_preserves hResolve hFinds h
  have hFields : ∀ k ∈ keys, k.field.hops = [] → k.field.leaf = f.name → k.field = key :=
    forall_field_of_compileSort
      (Q := fun field => field.hops = [] → field.leaf = f.name → field = key) hResolve
      (fun _ _ _ _ hs hFound => hs.eq_of_resolve hFound) hFirst hKeys
  rcases exists_base_key_or_resolved_of_tieBreak hPrimary hLast with
    ⟨k, hk, hHops, hLeaf⟩ | ⟨found, r₄, hFound, rfl⟩
  · exact ⟨k, List.mem_append_left _ hk, hFields k hk hHops hLeaf⟩
  · have hResolved := hSecond.resolve_eq
    rw [hFound] at hResolved
    cases hResolved
    exact ⟨_, List.mem_append_right _ List.mem_cons_self, rfl⟩

/-- Records tied in the order of a compiled query are tied by the primary key. -/
theorem key_order_eq_of_compile {a b : Record} (hTied : q.order a b = .eq) :
    key.order a b = .eq := by
  obtain ⟨k, hk, rfl⟩ := exists_key_of_compile hKey h
  have hOrder := orderByKeys_eq_eq hTied k hk
  rw [SortKey.order, dataType_of_compile h k hk] at hOrder
  exact DataType.order_asc_eq_eq hOrder

end

end Specification

end RecordFilter
