import RecordFilter.Proofs.Schema.Cache
import RecordFilter.Query.Compile

/-!
# What specifications compile to

A compiled query is made of four parts that are compiled one after another: filters, sort keys, the
tie-break and the joins of preloads. Its filters carry conditions compiled for the kinds of their
fields, its sort keys the data types of theirs. Compiling leaves a faithful resolver faithful.
-/

namespace RecordFilter.Specification

open Resolving

variable {κ : Type} {catalog : Catalog κ} {schema : RecordSchema κ}

/-- The parts of a successful compilation. -/
theorem of_compile {spec : Specification} {q : CompiledQuery κ} {r r' : Resolver κ}
    (h : (spec.compile catalog schema).outcome r = (.ok q, r')) :
    ∃ filters keys last preloads r₁ r₂ r₃,
      (compileFilters catalog schema spec.filters).outcome r = (.ok filters, r₁) ∧
      (compileSort catalog schema spec.sort).outcome r₁ = (.ok keys, r₂) ∧
      (tieBreak catalog schema keys).outcome r₂ = (.ok last, r₃) ∧
      (compilePreload catalog schema spec.preload).outcome r₃ = (.ok preloads, r') ∧
      q = { schema, logic := spec.logic, filters, sort := keys ++ last
            joins := distinctJoins (filters.flatMap (·.field.joins) ++
              keys.flatMap (·.field.joins) ++ preloads) } := by
  obtain ⟨filters, r₁, hFilters, h⟩ := outcome_bind_eq_ok.mp h
  obtain ⟨keys, r₂, hKeys, h⟩ := outcome_bind_eq_ok.mp h
  obtain ⟨last, r₃, hLast, h⟩ := outcome_bind_eq_ok.mp h
  obtain ⟨preloads, r₄, hPreloads, h⟩ := outcome_bind_eq_ok.mp h
  obtain ⟨rfl, rfl⟩ := outcome_pure_eq_ok.mp h
  exact ⟨filters, keys, last, preloads, r₁, r₂, r₃, hFilters, hKeys, hLast, hPreloads, rfl⟩

theorem exists_filter_of_compileFilters {fs : List FieldFilter} {filters : List (CompiledFilter κ)}
    {r r' : Resolver κ} (h : (compileFilters catalog schema fs).outcome r = (.ok filters, r')) :
    ∀ f ∈ filters, ∃ source ∈ fs, source.compile f.field.kind = .ok f.condition := by
  induction fs generalizing r r' filters with
  | nil =>
    rw [compileFilters] at h
    obtain ⟨rfl, -⟩ := outcome_pure_eq_ok.mp h
    intro f hf
    cases hf
  | cons source fs ih =>
    rw [compileFilters] at h
    obtain ⟨found, r₁, -, h⟩ := outcome_bind_eq_ok.mp h
    cases found with
    | none =>
      intro f hf
      obtain ⟨s, hs, hCompile⟩ := ih h f hf
      exact ⟨s, List.mem_cons_of_mem _ hs, hCompile⟩
    | some field =>
      obtain ⟨condition, r₂, hCondition, h⟩ := outcome_bind_eq_ok.mp h
      obtain ⟨rest, r₃, hRest, h⟩ := outcome_bind_eq_ok.mp h
      obtain ⟨rfl, -⟩ := outcome_pure_eq_ok.mp h
      have hCompile : source.compile field.kind = .ok condition := congrArg Prod.fst hCondition
      intro f hf
      rcases List.mem_cons.mp hf with rfl | hf
      · exact ⟨source, List.mem_cons_self, hCompile⟩
      · obtain ⟨s, hs, hSource⟩ := ih hRest f hf
        exact ⟨s, List.mem_cons_of_mem _ hs, hSource⟩

theorem dataType_of_compileSort {ss : List SortField} {keys : List (SortKey κ)} {r r' : Resolver κ}
    (h : (compileSort catalog schema ss).outcome r = (.ok keys, r')) :
    ∀ k ∈ keys, k.dataType = k.field.kind.dataType := by
  induction ss generalizing r r' keys with
  | nil =>
    rw [compileSort] at h
    obtain ⟨rfl, -⟩ := outcome_pure_eq_ok.mp h
    exact nofun
  | cons s ss ih =>
    rw [compileSort] at h
    obtain ⟨found, r₁, -, h⟩ := outcome_bind_eq_ok.mp h
    cases found with
    | none => exact ih h
    | some field =>
      obtain ⟨rest, r₂, hRest, h⟩ := outcome_bind_eq_ok.mp h
      obtain ⟨rfl, -⟩ := outcome_pure_eq_ok.mp h
      intro k hk
      rcases List.mem_cons.mp hk with rfl | hk
      · rfl
      · exact ih hRest k hk

theorem resolve_of_tieBreak {keys last : List (SortKey κ)} {r r' : Resolver κ}
    (h : (tieBreak catalog schema keys).outcome r = (.ok last, r')) :
    ∀ k ∈ last, k.dataType = k.field.kind.dataType ∧ ∃ f s,
      schema.primaryKeyField? = some f ∧
      (Resolver.resolve catalog schema f.name).outcome r = (.ok (some k.field), s) := by
  unfold tieBreak at h
  split at h
  · obtain ⟨rfl, -⟩ := outcome_pure_eq_ok.mp h
    exact nofun
  · rename_i f hKey
    split at h
    · obtain ⟨rfl, -⟩ := outcome_pure_eq_ok.mp h
      exact nofun
    · obtain ⟨found, r₁, hFound, h⟩ := outcome_bind_eq_ok.mp h
      cases found with
      | none =>
        obtain ⟨rfl, -⟩ := outcome_pure_eq_ok.mp h
        exact nofun
      | some field =>
        obtain ⟨rfl, -⟩ := outcome_pure_eq_ok.mp h
        intro k hk
        rw [List.mem_singleton.mp hk]
        exact ⟨rfl, f, r₁, hKey, hFound⟩

section
variable {spec : Specification} {q : CompiledQuery κ} {r r' : Resolver κ}

theorem exists_filter_of_compile (h : (spec.compile catalog schema).outcome r = (.ok q, r')) :
    ∀ f ∈ q.filters, ∃ source ∈ spec.filters, source.compile f.field.kind = .ok f.condition := by
  obtain ⟨filters, keys, last, preloads, r₁, r₂, r₃, hFilters, -, -, -, rfl⟩ := of_compile h
  exact exists_filter_of_compileFilters hFilters

theorem dataType_of_compile (h : (spec.compile catalog schema).outcome r = (.ok q, r')) :
    ∀ k ∈ q.sort, k.dataType = k.field.kind.dataType := by
  obtain ⟨filters, keys, last, preloads, r₁, r₂, r₃, -, hKeys, hLast, -, rfl⟩ := of_compile h
  intro k hk
  rcases List.mem_append.mp hk with hk | hk
  · exact dataType_of_compileSort hKeys k hk
  · exact (resolve_of_tieBreak hLast k hk).1

end

-- What resolving keeps of a resolver, compiling keeps. Every field of the query was resolved on a
-- resolver of which that holds.

section
variable {P : Resolver κ → Prop} {Q : ResolvedField κ → Prop}
  (hResolve : ∀ path, Preserves P (Resolver.resolve catalog schema path))
include hResolve

theorem preserves_compileFilters (fs : List FieldFilter) :
    Preserves P (compileFilters catalog schema fs) := by
  induction fs with
  | nil => exact preserves_pure []
  | cons f fs ih =>
    refine (hResolve f.field).bind fun found => ?_
    cases found with
    | none => exact ih
    | some field =>
      exact (preserves_liftExcept _).bind fun condition => ih.bind fun rest => preserves_pure _

theorem preserves_compileSort (ss : List SortField) :
    Preserves P (compileSort catalog schema ss) := by
  induction ss with
  | nil => exact preserves_pure []
  | cons s ss ih =>
    refine (hResolve s.field).bind fun found => ?_
    cases found with
    | none => exact ih
    | some field => exact ih.bind fun rest => preserves_pure _

theorem preserves_tieBreak (keys : List (SortKey κ)) :
    Preserves P (tieBreak catalog schema keys) := by
  unfold tieBreak
  split
  · exact preserves_pure _
  · split
    · exact preserves_pure _
    · refine (hResolve _).bind fun found => ?_
      cases found <;> exact preserves_pure _

omit hResolve in
theorem preserves_compilePreload (paths : List String) :
    Preserves P (compilePreload catalog schema paths) := by
  induction paths with
  | nil => exact preserves_pure []
  | cons path paths ih =>
    refine (Resolver.preserves_resolveRelation path).bind fun found => ?_
    cases found with
    | none => exact ih
    | some joins => exact ih.bind fun rest => preserves_pure _

theorem preserves_compile (spec : Specification) :
    Preserves P (spec.compile catalog schema) := by
  refine (preserves_compileFilters hResolve _).bind fun filters => ?_
  refine (preserves_compileSort hResolve _).bind fun keys => ?_
  refine (preserves_tieBreak hResolve keys).bind fun last => ?_
  exact (preserves_compilePreload _).bind fun preloads => preserves_pure _

/-- The parts of a compilation, and what the resolver keeps until the tie-break. -/
theorem of_compile_of_preserves {spec : Specification} {q : CompiledQuery κ} {r r' : Resolver κ}
    (hr : P r) (h : (spec.compile catalog schema).outcome r = (.ok q, r')) :
    ∃ filters keys last preloads r₁ r₂ r₃, P r₁ ∧ P r₂ ∧
      (compileFilters catalog schema spec.filters).outcome r = (.ok filters, r₁) ∧
      (compileSort catalog schema spec.sort).outcome r₁ = (.ok keys, r₂) ∧
      (tieBreak catalog schema keys).outcome r₂ = (.ok last, r₃) ∧
      (compilePreload catalog schema spec.preload).outcome r₃ = (.ok preloads, r') ∧
      q = { schema, logic := spec.logic, filters, sort := keys ++ last
            joins := distinctJoins (filters.flatMap (·.field.joins) ++
              keys.flatMap (·.field.joins) ++ preloads) } := by
  obtain ⟨filters, keys, last, preloads, r₁, r₂, r₃, hFilters, hKeys, hRest⟩ := of_compile h
  have hFirst := (preserves_compileFilters hResolve spec.filters).of_outcome_eq hr hFilters
  have hSecond := (preserves_compileSort hResolve spec.sort).of_outcome_eq hFirst hKeys
  exact ⟨filters, keys, last, preloads, r₁, r₂, r₃, hFirst, hSecond, hFilters, hKeys, hRest⟩

variable (hField : ∀ path r r' field, P r →
  (Resolver.resolve catalog schema path).outcome r = (.ok (some field), r') → Q field)
include hField

theorem forall_field_of_compileFilters {fs : List FieldFilter} {filters : List (CompiledFilter κ)}
    {r r' : Resolver κ} (hr : P r)
    (h : (compileFilters catalog schema fs).outcome r = (.ok filters, r')) :
    ∀ f ∈ filters, Q f.field := by
  induction fs generalizing r r' filters with
  | nil =>
    rw [compileFilters] at h
    obtain ⟨rfl, -⟩ := outcome_pure_eq_ok.mp h
    exact fun _ hf => absurd hf List.not_mem_nil
  | cons f fs ih =>
    rw [compileFilters] at h
    obtain ⟨found, r₁, hFound, h⟩ := outcome_bind_eq_ok.mp h
    have hNext := (hResolve f.field).of_outcome_eq hr hFound
    cases found with
    | none => exact ih hNext h
    | some field =>
      obtain ⟨condition, r₂, hCondition, h⟩ := outcome_bind_eq_ok.mp h
      obtain ⟨rest, r₃, hRest, h⟩ := outcome_bind_eq_ok.mp h
      obtain ⟨rfl, -⟩ := outcome_pure_eq_ok.mp h
      intro f' hf
      rcases List.mem_cons.mp hf with rfl | hf
      · exact hField _ _ _ _ hr hFound
      · exact ih ((preserves_liftExcept _).of_outcome_eq hNext hCondition) hRest f' hf

theorem forall_field_of_compileSort {ss : List SortField} {keys : List (SortKey κ)}
    {r r' : Resolver κ} (hr : P r)
    (h : (compileSort catalog schema ss).outcome r = (.ok keys, r')) :
    ∀ k ∈ keys, Q k.field := by
  induction ss generalizing r r' keys with
  | nil =>
    rw [compileSort] at h
    obtain ⟨rfl, -⟩ := outcome_pure_eq_ok.mp h
    exact fun _ hf => absurd hf List.not_mem_nil
  | cons s ss ih =>
    rw [compileSort] at h
    obtain ⟨found, r₁, hFound, h⟩ := outcome_bind_eq_ok.mp h
    have hNext := (hResolve s.field).of_outcome_eq hr hFound
    cases found with
    | none => exact ih hNext h
    | some field =>
      obtain ⟨rest, r₂, hRest, h⟩ := outcome_bind_eq_ok.mp h
      obtain ⟨rfl, -⟩ := outcome_pure_eq_ok.mp h
      intro k hk
      rcases List.mem_cons.mp hk with rfl | hk
      · exact hField _ _ _ _ hr hFound
      · exact ih hNext hRest k hk

end

end RecordFilter.Specification
