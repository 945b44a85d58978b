import Mathlib.Data.List.Forall2
import RecordFilter.Proofs.Condition.Complement
import RecordFilter.Proofs.Query.Joins

/-!
# Complements of specifications

A specification is turned into its opposite by the opposite modes and the other logic. The two
compile together. As long as one of their paths resolves, a record matches exactly one of the
queries; if none does, both queries are without filters and every record matches both.
-/

namespace RecordFilter

open Resolving

def Logic.dual : Logic → Logic
  | and => .or
  | or => .and

/-- Every filter has the opposite mode in the other specification, and the logic is the other. -/
structure Specification.Complements (s s' : Specification) : Prop where
  logic_eq : s'.logic = s.logic.dual
  filters : List.Forall₂ (fun f g => f.complement? = some g) s.filters s'.filters
  sort_eq : s'.sort = s.sort
  preload_eq : s'.preload = s.preload

theorem Specification.Complements.symm {s s' : Specification} (h : s.Complements s') :
    s'.Complements s where
  logic_eq := by
    rw [h.logic_eq]
    cases s.logic <;> rfl
  filters := (h.filters.imp fun _ _ => FieldFilter.complement?_symm).flip
  sort_eq := h.sort_eq.symm
  preload_eq := h.preload_eq.symm

section
variable {κ : Type}

structure CompiledFilter.Complements (a b : CompiledFilter κ) : Prop where
  field_eq : b.field = a.field
  matchesValue : ∀ v, b.condition.matchesValue v = !a.condition.matchesValue v

theorem CompiledFilter.Complements.matchesRecord {a b : CompiledFilter κ} (h : a.Complements b)
    (record : Record) : b.matchesRecord record = !a.matchesRecord record := by
  rw [CompiledFilter.matchesRecord, CompiledFilter.matchesRecord, h.field_eq, h.matchesValue]

def Resolver.Resolves (catalog : Catalog κ) (schema : RecordSchema κ) (r : Resolver κ)
    (path : String) : Prop :=
  ∃ field, ((resolve catalog schema path).outcome r).1 = .ok (some field)

variable {filters filters' : List (CompiledFilter κ)}

theorem any_complement (h : List.Forall₂ CompiledFilter.Complements filters filters')
    (record : Record) :
    (filters'.any fun f => f.matchesRecord record) =
      !filters.all fun f => f.matchesRecord record := by
  induction h with
  | nil => rfl
  | cons hFilter _ ih =>
    rw [List.any_cons, List.all_cons, ih, hFilter.matchesRecord, Bool.not_and]

theorem all_complement (h : List.Forall₂ CompiledFilter.Complements filters filters')
    (record : Record) :
    (filters'.all fun f => f.matchesRecord record) =
      !filters.any fun f => f.matchesRecord record := by
  induction h with
  | nil => rfl
  | cons hFilter _ ih =>
    rw [List.all_cons, List.any_cons, ih, hFilter.matchesRecord, Bool.not_or]

theorem isEmpty_complement (h : List.Forall₂ CompiledFilter.Complements filters filters') :
    filters'.isEmpty = filters.isEmpty := by
  cases h <;> rfl

theorem flatMap_joins_complement (h : List.Forall₂ CompiledFilter.Complements filters filters') :
    filters'.flatMap (·.field.joins) = filters.flatMap (·.field.joins) := by
  induction h with
  | nil => rfl
  | cons hFilter _ ih => rw [List.flatMap_cons, List.flatMap_cons, ih, hFilter.field_eq]

/-- Without filters both queries match every record. -/
theorem CompiledQuery.matchesRecord_complement_iff {q q' : CompiledQuery κ}
    (hLogic : q'.logic = q.logic.dual)
    (hFilters : List.Forall₂ CompiledFilter.Complements q.filters q'.filters) :
    (∀ record, q'.matchesRecord record = !q.matchesRecord record) ↔ q.filters ≠ [] := by
  have hEmpty := isEmpty_complement hFilters
  constructor
  · intro hSplit hNone
    have hBoth := hSplit default
    rw [hNone] at hEmpty
    rw [matchesRecord_of_filters_eq_nil hNone,
      matchesRecord_of_filters_eq_nil (List.isEmpty_iff.mp hEmpty)] at hBoth
    cases hBoth
  · intro hSome record
    rw [← List.isEmpty_eq_false_iff] at hSome
    rw [hSome] at hEmpty
    cases hq : q.logic <;> rw [hq] at hLogic <;> simp only [matchesRecord, hq, hLogic, Logic.dual]
    · rw [hEmpty, Bool.false_or]
      exact any_complement hFilters record
    · rw [hSome, Bool.false_or]
      exact all_complement hFilters record

end

namespace Specification

variable {κ : Type} {catalog : Catalog κ} {schema : RecordSchema κ}

theorem exists_compileFilters_complement {fs gs : List FieldFilter}
    (h : List.Forall₂ (fun f g => f.complement? = some g) fs gs) {filters : List (CompiledFilter κ)}
    {r r' : Resolver κ} (hc : (compileFilters catalog schema fs).outcome r = (.ok filters, r')) :
    ∃ filters', (compileFilters catalog schema gs).outcome r = (.ok filters', r') ∧
      List.Forall₂ CompiledFilter.Complements filters filters' := by
  induction h generalizing r r' filters with
  | nil =>
    obtain ⟨rfl, rfl⟩ := outcome_pure_eq_ok.mp hc
    exact ⟨[], rfl, .nil⟩
  | @cons f g fs gs hMode _ ih =>
    rw [compileFilters] at hc
    obtain ⟨found, r₁, hFound, hc⟩ := outcome_bind_eq_ok.mp hc
    have hField : g.field = f.field := by
      obtain ⟨n, -, rfl⟩ := Option.map_eq_some_iff.mp hMode
      rfl
    rw [← hField] at hFound
    cases found with
    | none =>
      obtain ⟨filters', hRest, hComplements⟩ := ih hc
      exact ⟨filters', outcome_bind_eq_ok.mpr ⟨none, r₁, hFound, hRest⟩, hComplements⟩
    | some field =>
      obtain ⟨condition, r₂, hCondition, hc⟩ := outcome_bind_eq_ok.mp hc
      obtain ⟨rest, r₃, hRest, hc⟩ := outcome_bind_eq_ok.mp hc
      obtain ⟨rfl, rfl⟩ := outcome_pure_eq_ok.mp hc
      obtain ⟨rest', hRest', hComplements⟩ := ih hRest
      rw [outcome_liftExcept, Prod.mk.injEq] at hCondition
      obtain ⟨hCondition, rfl⟩ := hCondition
      obtain ⟨condition', hOther, hSign⟩ := FieldFilter.exists_compile_complement hMode hCondition
      refine ⟨⟨field, condition'⟩ :: rest', outcome_bind_eq_ok.mpr ⟨some field, r₁, hFound, ?_⟩,
        .cons ⟨rfl, hSign⟩ hComplements⟩
      refine outcome_bind_eq_ok.mpr ⟨condition', r₁, ?_, ?_⟩
      · rw [outcome_liftExcept, hOther]
      · exact outcome_bind_eq_ok.mpr ⟨rest', r₃, hRest', rfl⟩

theorem exists_compile_complement {s s' : Specification} (h : s.Complements s')
    {q : CompiledQuery κ} {r r' : Resolver κ}
    (hc : (s.compile catalog schema).outcome r = (.ok q, r')) :
    ∃ filters', List.Forall₂ CompiledFilter.Complements q.filters filters' ∧
      (s'.compile catalog schema).outcome r =
        (.ok { q with logic := q.logic.dual, filters := filters' }, r') := by
  obtain ⟨filters, keys, last, preloads, r₁, r₂, r₃, hFilters, hKeys, hLast, hPreloads, rfl⟩ :=
    of_compile hc
  obtain ⟨filters', hFilters', hComplements⟩ := exists_compileFilters_complement h.filters hFilters
  have hJoins := flatMap_joins_complement hComplements
  refine ⟨filters', hComplements, ?_⟩
  rw [← h.sort_eq] at hKeys
  rw [← h.preload_eq] at hPreloads
  refine outcome_bind_eq_ok.mpr ⟨filters', r₁, hFilters', ?_⟩
  refine outcome_bind_eq_ok.mpr ⟨keys, r₂, hKeys, ?_⟩
  refine outcome_bind_eq_ok.mpr ⟨last, r₃, hLast, ?_⟩
  refine outcome_bind_eq_ok.mpr ⟨preloads, r', hPreloads, ?_⟩
  rw [outcome_pure, hJoins, h.logic_eq]

/-- The compiled filters are those whose paths resolve. A path that is dropped leaves the resolver
as it was, so what resolves first resolves on the resolver given. -/
theorem filters_ne_nil_iff {fs : List FieldFilter} {filters : List (CompiledFilter κ)}
    {r r' : Resolver κ} (h : (compileFilters catalog schema fs).outcome r = (.ok filters, r')) :
    filters ≠ [] ↔ ∃ f ∈ fs, r.Resolves catalog schema f.field := by
  induction fs generalizing r r' filters with
  | nil =>
    obtain ⟨rfl, -⟩ := outcome_pure_eq_ok.mp h
    simp
  | cons f fs ih =>
    rw [compileFilters] at h
    obtain ⟨found, r₁, hFound, hRest⟩ := outcome_bind_eq_ok.mp h
    cases found with
    | none =>
      obtain rfl : r₁ = r := Resolver.eq_of_resolve_none hFound
      have hDropped : ¬ r₁.Resolves catalog schema f.field := by
        rintro ⟨field, hField⟩
        rw [hFound] at hField
        cases hField
      rw [ih hRest, List.exists_mem_cons_iff, or_iff_right hDropped]
    | some field =>
      obtain ⟨condition, r₂, -, hRest⟩ := outcome_bind_eq_ok.mp hRest
      obtain ⟨rest, r₃, -, hRest⟩ := outcome_bind_eq_ok.mp hRest
      obtain ⟨rfl, -⟩ := outcome_pure_eq_ok.mp hRest
      refine iff_of_true (List.cons_ne_nil _ _) ⟨f, List.mem_cons_self, field, ?_⟩
      rw [hFound]

variable (catalog schema) in
/-- Filters of opposite modes compile together and split all values. Specifications of opposite
filters compile together, and their queries split all records as soon as one path resolves. -/
theorem complements_split (r : Resolver κ) :
    (∀ f g : FieldFilter, f.complement? = some g → ∀ kind,
      ((∃ c, f.compile kind = .ok c) ↔ ∃ c, g.compile kind = .ok c) ∧
      ∀ c c', f.compile kind = .ok c → g.compile kind = .ok c' →
        ∀ v, c'.matchesValue v = !c.matchesValue v) ∧
    ∀ s s' : Specification, s.Complements s' →
      ((∃ q r', (s.compile catalog schema).outcome r = (.ok q, r')) ↔
        ∃ q r', (s'.compile catalog schema).outcome r = (.ok q, r')) ∧
      ∀ q q' r' r'', (s.compile catalog schema).outcome r = (.ok q, r') →
        (s'.compile catalog schema).outcome r = (.ok q', r'') →
        ((∀ record, q'.matchesRecord record = !q.matchesRecord record) ↔
          ∃ f ∈ s.filters, r.Resolves catalog schema f.field) := by
  constructor
  · intro f g h kind
    refine ⟨⟨?_, ?_⟩, ?_⟩
    · rintro ⟨c, hc⟩
      obtain ⟨c', hOther, -⟩ := FieldFilter.exists_compile_complement h hc
      exact ⟨c', hOther⟩
    · rintro ⟨c, hc⟩
      obtain ⟨c', hOther, -⟩ :=
        FieldFilter.exists_compile_complement (FieldFilter.complement?_symm h) hc
      exact ⟨c', hOther⟩
    · intro c c' hc hc'
      obtain ⟨found, hFound, hSplit⟩ := FieldFilter.exists_compile_complement h hc
      obtain rfl : found = c' := Except.ok.inj (hFound.symm.trans hc')
      exact hSplit
  · intro s s' h
    refine ⟨⟨?_, ?_⟩, ?_⟩
    · rintro ⟨q, r', hq⟩
      obtain ⟨filters', -, hOther⟩ := exists_compile_complement h hq
      exact ⟨_, r', hOther⟩
    · rintro ⟨q, r', hq⟩
      obtain ⟨filters', -, hOther⟩ := exists_compile_complement h.symm hq
      exact ⟨_, r', hOther⟩
    · intro q q' r' r'' hq hq'
      obtain ⟨filters', hFilters, hOther⟩ := exists_compile_complement h hq
      rw [hq'] at hOther
      cases hOther
      rw [CompiledQuery.matchesRecord_complement_iff rfl hFilters]
      obtain ⟨filters, keys, last, preloads, r₁, r₂, r₃, hCompiled, -, -, -, rfl⟩ := of_compile hq
      exact filters_ne_nil_iff hCompiled

end Specification

namespace Tracker

def coreBoards : Specification :=
  { filters := [named "lead.team.name" "core",
      { field := "lead.mentor.name", mode := .isNotEmpty, dataType := .text }] }

def otherBoards : Specification :=
  { logic := .or
    filters := [{ named "lead.team.name" "core" with mode := .notEqual },
      { field := "lead.mentor.name", mode := .isEmpty, dataType := .text }] }

theorem complements_coreBoards : coreBoards.Complements otherBoards :=
  ⟨rfl, .cons rfl (.cons rfl .nil), rfl, rfl⟩

theorem split_by_coreBoards :
    (∃ c c', (named "lead.team.name" "core").compile .text = .ok c ∧
      { named "lead.team.name" "core" with mode := .notEqual }.compile .text = .ok c' ∧
      ∀ v, c'.matchesValue v = !c.matchesValue v) ∧
    ∃ q q' r' r'', (coreBoards.compile catalog boards).outcome resolver = (.ok q, r') ∧
      (otherBoards.compile catalog boards).outcome resolver = (.ok q', r'') ∧
      ∀ record, q'.matchesRecord record = !q.matchesRecord record := by
  obtain ⟨hFilters, hSpecifications⟩ := Specification.complements_split catalog boards resolver
  constructor
  · obtain ⟨-, hSplit⟩ := hFilters (named "lead.team.name" "core") _ rfl .text
    exact ⟨_, _, rfl, rfl, hSplit _ _ rfl rfl⟩
  · obtain ⟨-, hSplit⟩ := hSpecifications coreBoards otherBoards complements_coreBoards
    refine ⟨_, _, _, _, rfl, rfl, (hSplit _ _ _ _ rfl rfl).mpr ?_⟩
    exact ⟨_, List.mem_cons_self, _, rfl⟩

end Tracker

end RecordFilter
