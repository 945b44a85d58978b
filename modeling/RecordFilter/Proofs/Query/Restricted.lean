import RecordFilter.Proofs.Query.Compiled
import RecordFilter.Proofs.Schema.Agreement

/-!
# Leaving paths out of a specification

Where one resolver drops the paths that are left out for another, and the two agree on the rest, the
specification and what is left of it compile alike: the four parts of a compilation agree one after
another. With every path kept this compares one specification on two resolvers.
-/

namespace RecordFilter.Specification

open Resolving Resolver

/-- The specification with those of its paths that are to be kept, of fields and of relations. -/
def restrict (keep keepRelation : String → Bool) (spec : Specification) : Specification :=
  { spec with
    filters := spec.filters.filter fun f => keep f.field
    sort := spec.sort.filter fun s => keep s.field
    preload := spec.preload.filter keepRelation }

theorem restrict_eq_self_iff {keep keepRelation : String → Bool} {spec : Specification} :
    spec.restrict keep keepRelation = spec ↔ (∀ f ∈ spec.filters, keep f.field = true) ∧
      (∀ s ∈ spec.sort, keep s.field = true) ∧ ∀ path ∈ spec.preload, keepRelation path = true := by
  rw [← List.filter_eq_self, ← List.filter_eq_self, ← List.filter_eq_self]
  cases spec
  simp only [restrict, mk.injEq, true_and]

theorem restrict_true (spec : Specification) :
    spec.restrict (fun _ => true) (fun _ => true) = spec :=
  restrict_eq_self_iff.mpr ⟨fun _ _ => rfl, fun _ _ => rfl, fun _ _ => rfl⟩

def fieldPaths (spec : Specification) : List String :=
  spec.filters.map (·.field) ++ spec.sort.map (·.field)

section
variable {κ : Type} {catalog : Catalog κ} {schema : RecordSchema κ}
variable {R : Resolver κ → Resolver κ → Prop} {Q : FilterError → Prop}
variable {keep keepRelation : String → Bool}

variable (catalog schema R Q keep) in
/-- Related resolvers agree on the path if it is kept, and the first drops it if it is not. -/
def AgreeOn (path : String) : Prop :=
  if keep path = true then Agree R Q (resolve catalog schema path) (resolve catalog schema path)
  else Drops R (resolve catalog schema path)

variable (catalog schema R Q keepRelation) in
def AgreeOnRelation (path : String) : Prop :=
  if keepRelation path = true then
    Agree R Q (resolveRelation catalog schema path) (resolveRelation catalog schema path)
  else Drops R (resolveRelation catalog schema path)

theorem agree_compileFilters {fs : List FieldFilter}
    (hPaths : ∀ f ∈ fs, AgreeOn catalog schema R Q keep f.field)
    (hErrors : ∀ f ∈ fs, ∀ kind e, f.compile kind = .error e → Q e) :
    Agree R Q (compileFilters catalog schema fs)
      (compileFilters catalog schema (fs.filter fun f => keep f.field)) := by
  induction fs with
  | nil => exact agree_pure []
  | cons f fs ih =>
    have hRest := ih (fun g hg => hPaths g (List.mem_cons_of_mem _ hg))
      fun g hg => hErrors g (List.mem_cons_of_mem _ hg)
    have hFirst := hPaths f List.mem_cons_self
    rw [AgreeOn] at hFirst
    split at hFirst
    · rename_i hKept
      rw [List.filter_cons, if_pos hKept]
      refine hFirst.bind fun found => ?_
      cases found with
      | none => exact hRest
      | some field =>
        refine (agree_liftExcept (hErrors f List.mem_cons_self field.kind)).bind fun condition => ?_
        exact hRest.bind fun rest => agree_pure _
    · -- Without its field the filter is not compiled, so its operand cannot fail.
      rename_i hLeftOut
      rw [List.filter_cons, if_neg hLeftOut]
      exact hFirst.agree hRest

theorem agree_compileSort {ss : List SortField}
    (hPaths : ∀ s ∈ ss, AgreeOn catalog schema R Q keep s.field) :
    Agree R Q (compileSort catalog schema ss)
      (compileSort catalog schema (ss.filter fun s => keep s.field)) := by
  induction ss with
  | nil => exact agree_pure []
  | cons s ss ih =>
    have hRest := ih fun t ht => hPaths t (List.mem_cons_of_mem _ ht)
    have hFirst := hPaths s List.mem_cons_self
    rw [AgreeOn] at hFirst
    split at hFirst
    · rename_i hKept
      rw [List.filter_cons, if_pos hKept]
      refine hFirst.bind fun found => ?_
      cases found with
      | none => exact hRest
      | some field => exact hRest.bind fun rest => agree_pure _
    · rename_i hLeftOut
      rw [List.filter_cons, if_neg hLeftOut]
      exact hFirst.agree hRest

theorem agree_tieBreak (hKey : ∀ key, schema.primaryKeyField? = some key →
      Agree R Q (resolve catalog schema key.name) (resolve catalog schema key.name))
    (keys : List (SortKey κ)) :
    Agree R Q (tieBreak catalog schema keys) (tieBreak catalog schema keys) := by
  unfold tieBreak
  cases hPrimary : schema.primaryKeyField? with
  | none => exact agree_pure _
  | some key =>
    simp only
    split
    · exact agree_pure _
    · refine (hKey key hPrimary).bind fun found => ?_
      cases found <;> exact agree_pure _

theorem agree_compilePreload {paths : List String}
    (hPaths : ∀ path ∈ paths, AgreeOnRelation catalog schema R Q keepRelation path) :
    Agree R Q (compilePreload catalog schema paths)
      (compilePreload catalog schema (paths.filter keepRelation)) := by
  induction paths with
  | nil => exact agree_pure []
  | cons path paths ih =>
    have hRest := ih fun p hp => hPaths p (List.mem_cons_of_mem _ hp)
    have hFirst := hPaths path List.mem_cons_self
    rw [AgreeOnRelation] at hFirst
    split at hFirst
    · rename_i hKept
      rw [List.filter_cons, if_pos hKept]
      refine hFirst.bind fun found => ?_
      cases found with
      | none => exact hRest
      | some joins => exact hRest.bind fun rest => agree_pure _
    · rename_i hLeftOut
      rw [List.filter_cons, if_neg hLeftOut]
      exact hFirst.agree hRest

theorem agree_compile_restrict {spec : Specification}
    (hPaths : ∀ path ∈ spec.fieldPaths, AgreeOn catalog schema R Q keep path)
    (hKey : ∀ key, schema.primaryKeyField? = some key →
      Agree R Q (resolve catalog schema key.name) (resolve catalog schema key.name))
    (hRelations : ∀ path ∈ spec.preload, AgreeOnRelation catalog schema R Q keepRelation path)
    (hErrors : ∀ f ∈ spec.filters, ∀ kind e, f.compile kind = .error e → Q e) :
    Agree R Q (spec.compile catalog schema)
      ((spec.restrict keep keepRelation).compile catalog schema) := by
  have hFilters := agree_compileFilters (fun f hf =>
    hPaths f.field (List.mem_append_left _ (List.mem_map_of_mem hf))) hErrors
  have hSort := agree_compileSort fun s hs =>
    hPaths s.field (List.mem_append_right _ (List.mem_map_of_mem hs))
  refine hFilters.bind fun filters => hSort.bind fun keys => ?_
  refine (agree_tieBreak hKey keys).bind fun last => ?_
  exact (agree_compilePreload hRelations).bind fun preloads => agree_pure _

theorem agree_compileSort_self {ss : List SortField} (hPaths : ∀ s ∈ ss,
      Agree R Q (resolve catalog schema s.field) (resolve catalog schema s.field)) :
    Agree R Q (compileSort catalog schema ss) (compileSort catalog schema ss) := by
  have hAll := @agree_compileSort κ catalog schema R Q (fun _ => true) ss hPaths
  rwa [List.filter_eq_self.mpr fun _ _ => rfl] at hAll

theorem agree_compilePreload_self {paths : List String} (hPaths : ∀ path ∈ paths,
      Agree R Q (resolveRelation catalog schema path) (resolveRelation catalog schema path)) :
    Agree R Q (compilePreload catalog schema paths) (compilePreload catalog schema paths) := by
  have hAll := @agree_compilePreload κ catalog schema R Q (fun _ => true) paths hPaths
  rwa [List.filter_eq_self.mpr fun _ _ => rfl] at hAll

theorem agree_compile {spec : Specification}
    (hPaths : ∀ path ∈ spec.fieldPaths,
      Agree R Q (resolve catalog schema path) (resolve catalog schema path))
    (hKey : ∀ key, schema.primaryKeyField? = some key →
      Agree R Q (resolve catalog schema key.name) (resolve catalog schema key.name))
    (hRelations : ∀ path ∈ spec.preload,
      Agree R Q (resolveRelation catalog schema path) (resolveRelation catalog schema path))
    (hErrors : ∀ f ∈ spec.filters, ∀ kind e, f.compile kind = .error e → Q e) :
    Agree R Q (spec.compile catalog schema) (spec.compile catalog schema) := by
  have hAll : Agree R Q (spec.compile catalog schema)
      ((spec.restrict (fun _ => true) fun _ => true).compile catalog schema) :=
    agree_compile_restrict hPaths hKey hRelations hErrors
  rwa [restrict_true] at hAll

end

end RecordFilter.Specification
