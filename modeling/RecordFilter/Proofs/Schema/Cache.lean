import RecordFilter.Proofs.Schema.Resolving

/-!
# What a resolver remembers

A resolver that remembers nothing but what the walk over the schemas finds stays so: each action
leaves its depth and policy alone and remembers at most the field it has just walked to.
-/

namespace RecordFilter

open Resolving

variable {κ : Type} (catalog : Catalog κ) (schema : RecordSchema κ)

/-- What is remembered for the schema is what its paths lead to. -/
def Resolver.Faithful (r : Resolver κ) : Prop :=
  ∀ path field, r.cache.lookup (Resolver.key schema path) = some field →
    schema.fieldAt? catalog path = some field

namespace Resolver

variable {catalog schema}

theorem faithful_of_cache_eq_nil {r : Resolver κ} (h : r.cache = []) :
    r.Faithful catalog schema := by
  intro path field hLookup
  rw [h] at hLookup
  cases hLookup

theorem Faithful.remember {r : Resolver κ} (h : r.Faithful catalog schema) {path : String}
    {field : ResolvedField κ} (hField : schema.fieldAt? catalog path = some field) :
    (r.remember (key schema path) field).Faithful catalog schema := by
  intro path' field' hLookup
  rw [Resolver.remember, List.lookup_cons] at hLookup
  split at hLookup
  · rename_i hKey
    have hPath : path' = path := congrArg ResolverKey.path (beq_iff_eq.mp hKey)
    rw [hPath, hField, hLookup]
  · exact h path' field' hLookup

theorem outcome_resolve (r : Resolver κ) (path : String) :
    (resolve catalog schema path).outcome r =
      match r.cache.lookup (key schema path) with
      | some field => (.ok (some field), r)
      | none => match r.lookup catalog schema path with
        | .ok (some field) => (.ok (some field), r.remember (key schema path) field)
        | .ok none => (.ok none, r)
        | .error e => (.error e, r) := by
  have hRun : (resolve catalog schema path).outcome r =
      outcome (match r.cache.lookup (key schema path) with
        | some field => pure (some field)
        | none => (liftM (r.lookup catalog schema path) : Resolving κ _) >>= fun
          | some field => set (r.remember (key schema path) field) >>= fun _ => pure (some field)
          | none => pure none) r := by
    rw [resolve, outcome_bind]
    rfl
  rw [hRun]
  cases r.cache.lookup (key schema path) with
  | some field => rfl
  | none =>
    change outcome (_ >>= _) r = _
    rw [outcome_bind, outcome_liftExcept]
    rcases r.lookup catalog schema path with e | _ | field <;> rfl

theorem eq_of_resolve_none {r r' : Resolver κ} {path : String}
    (h : (resolve catalog schema path).outcome r = (.ok none, r')) : r' = r := by
  rw [outcome_resolve] at h
  split at h
  · cases h
  · split at h <;> cases h
    rfl

theorem fieldAt?_of_lookup {r : Resolver κ} {path : String} {field : ResolvedField κ}
    (h : r.lookup catalog schema path = .ok (some field)) :
    schema.fieldAt? catalog path = some field := by
  unfold Resolver.lookup at h
  split at h
  · cases hPolicy : r.policy <;> rw [hPolicy] at h <;> cases h
  · split at h
    · rename_i hField
      rw [hField]
      exact Except.ok.inj h
    · cases hPolicy : r.policy <;> rw [hPolicy] at h <;> cases h

theorem preserves_resolve (path : String) :
    Preserves (Faithful catalog schema) (resolve catalog schema path) := by
  intro r h
  rw [outcome_resolve]
  split
  · exact h
  · split
    · rename_i hLookup
      exact h.remember (fieldAt?_of_lookup hLookup)
    · exact h
    · exact h

/-- Relations are walked anew each time. -/
theorem outcome_resolveRelation (r : Resolver κ) (path : String) :
    (resolveRelation catalog schema path).outcome r =
      (r.lookupRelation catalog schema path, r) := by
  rw [resolveRelation, outcome_bind]
  exact outcome_liftExcept _ r

theorem preserves_resolveRelation {P : Resolver κ → Prop} (path : String) :
    Preserves P (resolveRelation catalog schema path) := by
  intro r h
  rw [outcome_resolveRelation]
  exact h

theorem joinsOf?_of_resolveRelation {r r' : Resolver κ} {path : String}
    {joins : List (JoinSpec κ)}
    (h : (resolveRelation catalog schema path).outcome r = (.ok (some joins), r')) :
    schema.joinsOf? catalog path = some joins := by
  rw [outcome_resolveRelation] at h
  have hLookup := congrArg Prod.fst h
  simp only [lookupRelation] at hLookup
  split at hLookup
  · cases hPolicy : r.policy <;> rw [hPolicy] at hLookup <;> cases hLookup
  · split at hLookup
    · rename_i hJoins
      rw [hJoins]
      exact Except.ok.inj hLookup
    · cases hPolicy : r.policy <;> rw [hPolicy] at hLookup <;> cases hLookup

/-- What a faithful resolver resolves a path to is where the path leads. -/
theorem Faithful.fieldAt?_of_resolve {r r' : Resolver κ} (h : r.Faithful catalog schema)
    {path : String} {field : ResolvedField κ}
    (hResolve : (resolve catalog schema path).outcome r = (.ok (some field), r')) :
    schema.fieldAt? catalog path = some field := by
  rw [outcome_resolve] at hResolve
  split at hResolve
  · rename_i hCached
    cases hResolve
    exact h path field hCached
  · split at hResolve
    · rename_i hLookup
      cases hResolve
      exact fieldAt?_of_lookup hLookup
    · cases hResolve
    · cases hResolve

end Resolver

end RecordFilter
