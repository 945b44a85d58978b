import RecordFilter.Proofs.Condition.Failures
import RecordFilter.Proofs.Query.Joins
import RecordFilter.Proofs.Query.Restricted

/-!
# Dropping and refusing paths

A resolver that drops the paths it cannot resolve compiles a specification as one that refuses them
compiles what of it can be resolved. The latter accepts exactly what can be resolved in full, and
whatever fails, the request is to blame.
-/

namespace RecordFilter

open Resolving

section
variable {κ α : Type} {catalog : Catalog κ} {schema : RecordSchema κ}
variable {policy policy' : UnknownFieldPolicy} {depth : Nat}

/-- A resolver of these settings that remembers for the schema what it would find. -/
structure Resolver.Settled (catalog : Catalog κ) (schema : RecordSchema κ)
    (policy : UnknownFieldPolicy) (depth : Nat) (r : Resolver κ) : Prop where
  exact : r.Exact catalog schema
  policy_eq : r.policy = policy
  maxDepth_eq : r.maxDepth = depth

open Resolver

namespace Resolving

variable {x : Resolving κ (Option α)} {found : Option α} {e : FilterError}
variable {Q : FilterError → Prop}

/-- Under each policy the action answers with what is found or what becomes of the failure. -/
def Finds (catalog : Catalog κ) (schema : RecordSchema κ) (depth : Nat)
    (x : Resolving κ (Option α)) (found : Option α) (e : FilterError) : Prop :=
  ∀ policy r, r.Settled catalog schema policy depth →
    (x.outcome r).1 = policy.answer found e ∧ (x.outcome r).2.Settled catalog schema policy depth

theorem finds_resolve (path : String) :
    Finds catalog schema depth (resolve catalog schema path)
      (schema.fieldWithin? catalog depth path) (schema.pathFailure depth path) := by
  rintro policy r ⟨hExact, rfl, rfl⟩
  constructor
  · rw [hExact.outcome_resolve_fst, lookup_eq]
  · exact ⟨hExact.outcome_resolve_snd path, policy_outcome_resolve r path,
      maxDepth_outcome_resolve r path⟩

theorem finds_resolveRelation (path : String) :
    Finds catalog schema depth (resolveRelation catalog schema path)
      (schema.joinsWithin? catalog depth path) (schema.pathFailure depth path) := by
  rintro policy r ⟨hExact, rfl, rfl⟩
  rw [outcome_resolveRelation, lookupRelation_eq]
  exact ⟨rfl, hExact, rfl, rfl⟩

theorem Finds.agree (h : Finds catalog schema depth x found e) (hFound : found.isSome = true) :
    Agree (fun r r' => r.Settled catalog schema policy depth ∧
      r'.Settled catalog schema policy' depth) Q x x := by
  rintro r r' ⟨hr, hr'⟩
  obtain ⟨a, rfl⟩ := Option.isSome_iff_exists.mp hFound
  obtain ⟨hAnswer, hNext⟩ := h policy r hr
  obtain ⟨hAnswer', hNext'⟩ := h policy' r' hr'
  rw [hAnswer, hAnswer']
  exact ⟨rfl, nofun, hNext, hNext'⟩

theorem Finds.drops (h : Finds catalog schema depth x found e) (hFound : ¬ found.isSome = true) :
    Drops (fun r r' => r.Settled catalog schema .ignore depth ∧
      r'.Settled catalog schema policy' depth) x := by
  rintro r r' ⟨hr, hr'⟩
  obtain rfl := Option.not_isSome_iff_eq_none.mp hFound
  obtain ⟨hAnswer, hNext⟩ := h .ignore r hr
  exact ⟨_, Prod.ext hAnswer rfl, hNext, hr'⟩

theorem Finds.agree_self (h : Finds catalog schema depth x found e) (he : Q e) :
    Agree (fun r r' => r = r' ∧ r.Settled catalog schema policy depth) Q x x := by
  refine Preserves.agree (fun r hr => (h policy r hr).2) fun r hr e' hError => ?_
  rw [(h policy r hr).1] at hError
  cases found with
  | some a => cases hError
  | none =>
    cases policy <;> cases hError
    exact he

theorem Finds.exists_of_outcome_eq (h : Finds catalog schema depth x found e) {r r' : Resolver κ}
    (hr : r.Settled catalog schema .reject depth) {answer : Option α}
    (hOutcome : x.outcome r = (.ok answer, r')) :
    ∃ a, answer = some a ∧ found.isSome = true ∧ r'.Settled catalog schema .reject depth := by
  obtain ⟨hAnswer, hNext⟩ := h .reject r hr
  rw [hOutcome] at hAnswer hNext
  cases found with
  | none => cases hAnswer
  | some a => exact ⟨a, Except.ok.inj hAnswer, rfl, hNext⟩

end Resolving

theorem RecordSchema.isValidation_pathFailure (schema : RecordSchema κ) (depth : Nat)
    (path : String) : (schema.pathFailure depth path).isValidation = true := by
  unfold pathFailure
  split <;> rfl

namespace Specification

variable (catalog schema depth) in
/-- What of the specification can be resolved within the depth. -/
def resolvable (spec : Specification) : Specification :=
  spec.restrict (fun path => (schema.fieldWithin? catalog depth path).isSome)
    fun path => (schema.joinsWithin? catalog depth path).isSome

variable {r r' : Resolver κ}

theorem isSome_of_compileFilters (hr : r.Settled catalog schema .reject depth)
    {fs : List FieldFilter} {filters : List (CompiledFilter κ)}
    (h : (compileFilters catalog schema fs).outcome r = (.ok filters, r')) :
    ∀ f ∈ fs, (schema.fieldWithin? catalog depth f.field).isSome = true := by
  induction fs generalizing r r' filters with
  | nil => exact List.forall_mem_nil _
  | cons f fs ih =>
    rw [compileFilters] at h
    obtain ⟨found, r₁, hFound, h⟩ := outcome_bind_eq_ok.mp h
    obtain ⟨field, rfl, hSome, hNext⟩ := (finds_resolve f.field).exists_of_outcome_eq hr hFound
    obtain ⟨condition, r₂, hCondition, h⟩ := outcome_bind_eq_ok.mp h
    obtain ⟨rest, r₃, hRest, -⟩ := outcome_bind_eq_ok.mp h
    have hKept := (preserves_liftExcept _).of_outcome_eq hNext hCondition
    exact List.forall_mem_cons.mpr ⟨hSome, ih hKept hRest⟩

theorem isSome_of_compileSort (hr : r.Settled catalog schema .reject depth)
    {ss : List SortField} {keys : List (SortKey κ)}
    (h : (compileSort catalog schema ss).outcome r = (.ok keys, r')) :
    ∀ s ∈ ss, (schema.fieldWithin? catalog depth s.field).isSome = true := by
  induction ss generalizing r r' keys with
  | nil => exact List.forall_mem_nil _
  | cons s ss ih =>
    rw [compileSort] at h
    obtain ⟨found, r₁, hFound, h⟩ := outcome_bind_eq_ok.mp h
    obtain ⟨field, rfl, hSome, hNext⟩ := (finds_resolve s.field).exists_of_outcome_eq hr hFound
    obtain ⟨rest, r₂, hRest, -⟩ := outcome_bind_eq_ok.mp h
    exact List.forall_mem_cons.mpr ⟨hSome, ih hNext hRest⟩

theorem isSome_of_compilePreload (hr : r.Settled catalog schema .reject depth)
    {paths : List String} {joins : List (JoinSpec κ)}
    (h : (compilePreload catalog schema paths).outcome r = (.ok joins, r')) :
    ∀ path ∈ paths, (schema.joinsWithin? catalog depth path).isSome = true := by
  induction paths generalizing r r' joins with
  | nil => exact List.forall_mem_nil _
  | cons path paths ih =>
    rw [compilePreload] at h
    obtain ⟨found, r₁, hFound, h⟩ := outcome_bind_eq_ok.mp h
    obtain ⟨first, rfl, hSome, hNext⟩ :=
      (finds_resolveRelation path).exists_of_outcome_eq hr hFound
    obtain ⟨rest, r₂, hRest, -⟩ := outcome_bind_eq_ok.mp h
    exact List.forall_mem_cons.mpr ⟨hSome, ih hNext hRest⟩

theorem resolvable_eq_self_of_compile (hr : r.Settled catalog schema .reject depth)
    {spec : Specification} {q : CompiledQuery κ}
    (h : (spec.compile catalog schema).outcome r = (.ok q, r')) :
    spec.resolvable catalog schema depth = spec := by
  have hResolve : ∀ path, Preserves (Settled catalog schema .reject depth)
      (resolve catalog schema path) := fun path r hr => (finds_resolve path .reject r hr).2
  obtain ⟨filters, keys, last, preloads, r₁, r₂, r₃, hFirst, hSecond, hFilters, hKeys, hLast,
    hPreloads, -⟩ := of_compile_of_preserves hResolve hr h
  have hThird := (preserves_tieBreak hResolve keys).of_outcome_eq hSecond hLast
  exact restrict_eq_self_iff.mpr ⟨isSome_of_compileFilters hr hFilters,
    isSome_of_compileSort hFirst hKeys, isSome_of_compilePreload hThird hPreloads⟩

theorem isValidation_of_compile (hr : r.Settled catalog schema policy depth)
    {spec : Specification} {e : FilterError}
    (h : ((spec.compile catalog schema).outcome r).1 = .error e) : e.isValidation = true := by
  have hPath := schema.isValidation_pathFailure depth
  have hAgree : Agree (fun r r' => r = r' ∧ r.Settled catalog schema policy depth)
      (fun e => e.isValidation = true) (spec.compile catalog schema)
      (spec.compile catalog schema) := by
    refine agree_compile ?_ ?_ ?_ ?_
    · exact fun path _ => (finds_resolve path).agree_self (hPath path)
    · exact fun key _ => (finds_resolve key.name).agree_self (hPath key.name)
    · exact fun path _ => (finds_resolveRelation path).agree_self (hPath path)
    · exact fun f _ kind e he => (FieldFilter.blames_compile kind e he).isValidation
  exact (hAgree r r ⟨rfl, hr⟩).2.1 e h

theorem agree_compile_resolvable (hKey : ∀ key, schema.primaryKeyField? = some key →
      (schema.fieldWithin? catalog depth key.name).isSome = true) (spec : Specification) :
    Agree (fun r r' => r.Settled catalog schema .ignore depth ∧
        r'.Settled catalog schema .reject depth) (fun e => e.isPathFailure = false)
      (spec.compile catalog schema)
      ((spec.resolvable catalog schema depth).compile catalog schema) := by
  refine agree_compile_restrict ?_ ?_ ?_ ?_
  · intro path _
    unfold AgreeOn
    split
    · rename_i hKept
      exact (finds_resolve path).agree hKept
    · rename_i hLeftOut
      exact (finds_resolve path).drops hLeftOut
  · -- No part of a specification names the tie-break, so it is resolved on either side.
    intro key hPrimary
    exact (finds_resolve key.name).agree (hKey key hPrimary)
  · intro path _
    unfold AgreeOnRelation
    split
    · rename_i hKept
      exact (finds_resolveRelation path).agree hKept
    · rename_i hLeftOut
      exact (finds_resolveRelation path).drops hLeftOut
  · intro f _ kind e he
    exact (FieldFilter.blames_compile kind e he).isPathFailure

/-- If the primary key, once it is declared, can be resolved: dropping paths compiles what can be
resolved, and never fails over a path; refusing them accepts what can be resolved in full, as it is
compiled when paths are dropped; and all errors are validation errors. -/
theorem compile_dropping_eq_compile_resolvable
    (hKey : ∀ key, schema.primaryKeyField? = some key →
      (schema.fieldWithin? catalog depth key.name).isSome = true)
    {dropping refusing : Resolver κ} (hDropping : dropping.Settled catalog schema .ignore depth)
    (hRefusing : refusing.Settled catalog schema .reject depth) (spec : Specification) :
    let compiled := fun (spec : Specification) r => ((spec.compile catalog schema).outcome r).1
    compiled spec dropping = compiled (spec.resolvable catalog schema depth) refusing ∧
      (∀ e, compiled spec dropping = .error e → e.isPathFailure = false) ∧
      (∀ q, compiled spec refusing = .ok q ↔
        spec.resolvable catalog schema depth = spec ∧ compiled spec dropping = .ok q) ∧
      ∀ e, compiled spec dropping = .error e ∨ compiled spec refusing = .error e →
        e.isValidation = true := by
  intro compiled
  obtain ⟨hSame, hPath, -⟩ :=
    agree_compile_resolvable hKey spec dropping refusing ⟨hDropping, hRefusing⟩
  refine ⟨hSame, hPath, ?_, ?_⟩
  · intro q
    constructor
    · intro hCompile
      have hFull : spec.resolvable catalog schema depth = spec :=
        resolvable_eq_self_of_compile hRefusing (Prod.ext hCompile rfl)
      rw [hFull] at hSame
      exact ⟨hFull, hSame.trans hCompile⟩
    · rintro ⟨hFull, hCompile⟩
      rw [hFull] at hSame
      exact hSame.symm.trans hCompile
  · rintro e (hError | hError)
    · exact isValidation_of_compile hDropping hError
    · exact isValidation_of_compile hRefusing hError

end Specification

end

namespace Tracker

/-- One filter leads nowhere and has no number for an operand, one is too deep; one sort key and
one of the relations are not there. -/
def outdated : Specification :=
  { filters := [
      { field := "lead.age", mode := .equal, dataType := .number
        value := some (.scalar (.text "old")) },
      named "lead.name" "Ada", named "lead.mentor.mentor.team.name" "core"]
    sort := [⟨"due", .asc⟩, ⟨"lead.name", .desc⟩]
    preload := ["lead.mentor", "owner"] }

theorem compile_outdated :
    let compiled := fun (spec : Specification) r => ((spec.compile catalog boards).outcome r).1
    let left : Specification :=
      { filters := [named "lead.name" "Ada"], sort := [⟨"lead.name", .desc⟩]
        preload := ["lead.mentor"] }
    compiled outdated { resolver with policy := .ignore } = compiled left resolver ∧
      (∃ q, compiled left resolver = .ok q) ∧
      compiled outdated resolver = .error (.unknownField "Board" "lead.age") ∧
      ∀ q, compiled outdated resolver ≠ .ok q := by
  intro compiled left
  have hLeft : outdated.resolvable catalog boards 4 = left := rfl
  have hKey : ∀ key, boards.primaryKeyField? = some key →
      (boards.fieldWithin? catalog 4 key.name).isSome = true := by
    rintro key ⟨⟩
    rfl
  have hFresh (policy : UnknownFieldPolicy) :
      Resolver.Settled catalog boards policy 4 { maxDepth := 4, policy } :=
    ⟨Resolver.exact_of_cache_eq_nil rfl, rfl, rfl⟩
  obtain ⟨hSame, -, hAccepted, -⟩ := Specification.compile_dropping_eq_compile_resolvable hKey
    (hFresh .ignore) (hFresh .reject) outdated
  rw [hLeft] at hSame hAccepted
  refine ⟨hSame, ⟨_, rfl⟩, rfl, ?_⟩
  intro q hCompile
  have hFull : left = outdated := ((hAccepted q).mp hCompile).1
  exact absurd (congrArg (·.filters.length) hFull) (by decide)

end Tracker

end RecordFilter
