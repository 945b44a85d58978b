import RecordFilter.Proofs.Schema.BasePath
import RecordFilter.Proofs.Schema.Cache

/-!
# Fields a resolver knows

A resolver remembers fields under the table and the name of a schema, so schemas that share both
share what is remembered. A field of the base record is therefore known under the kind with which
its name was first resolved, be it for another schema. Resolving paths of its own schema does not
change that kind, and every path that leads to the field is resolved to it.
-/

namespace RecordFilter

open Resolving

variable {κ : Type} {catalog : Catalog κ} {schema : RecordSchema κ} {f : FieldDef}

namespace Resolver

/-- The resolvers that requests leave behind, whichever schemas they are about. -/
inductive Reachable (catalog : Catalog κ) : Resolver κ → Prop
  | fresh {r : Resolver κ} : r.cache = [] → Reachable catalog r
  | resolved {r : Resolver κ} (schema : RecordSchema κ) (path : String) : Reachable catalog r →
      Reachable catalog ((resolve catalog schema path).outcome r).2

variable (catalog schema) in
theorem outcome_resolve_snd (r : Resolver κ) (path : String) :
    ((resolve catalog schema path).outcome r).2 = r ∨
      ∃ field, r.cache.lookup (key schema path) = none ∧
        r.lookup catalog schema path = .ok (some field) ∧
        ((resolve catalog schema path).outcome r).2 = r.remember (key schema path) field := by
  rw [outcome_resolve]
  split
  · exact .inl rfl
  · rename_i hAbsent
    split
    · rename_i field hLookup
      exact .inr ⟨field, hAbsent, hLookup, rfl⟩
    · exact .inl rfl
    · exact .inl rfl

theorem maxDepth_outcome_resolve (r : Resolver κ) (path : String) :
    ((resolve catalog schema path).outcome r).2.maxDepth = r.maxDepth := by
  rcases outcome_resolve_snd catalog schema r path with hSame | ⟨field, -, -, hRemembered⟩
  · rw [hSame]
  · rw [hRemembered]
    rfl

theorem Reachable.exists_schema {r : Resolver κ} (h : r.Reachable catalog) {k : ResolverKey}
    {field : ResolvedField κ} (hLookup : r.cache.lookup k = some field) :
    ∃ s : RecordSchema κ, key s k.path = k ∧ s.fieldAt? catalog k.path = some field := by
  induction h with
  | fresh hCache =>
    rw [hCache] at hLookup
    cases hLookup
  | resolved s path _ ih =>
    rcases outcome_resolve_snd catalog s _ path with hSame | ⟨found, -, hFound, hRemembered⟩
    · rw [hSame] at hLookup
      exact ih hLookup
    · rw [hRemembered, remember, List.lookup_cons] at hLookup
      split at hLookup
      · rename_i hKey
        cases hLookup
        rw [beq_iff_eq.mp hKey]
        exact ⟨s, rfl, fieldAt?_of_lookup hFound⟩
      · exact ih hLookup

/-- A field is found for a schema of the table, whether it is walked to or remembered. -/
theorem Reachable.exists_fieldAt?_of_resolve {r r' : Resolver κ} (h : r.Reachable catalog)
    {path : String} {field : ResolvedField κ}
    (hResolve : (resolve catalog schema path).outcome r = (.ok (some field), r')) :
    ∃ s : RecordSchema κ, s.table = schema.table ∧ s.fieldAt? catalog path = some field := by
  rw [outcome_resolve] at hResolve
  split at hResolve
  · rename_i hCached
    cases hResolve
    obtain ⟨s, hKey, hField⟩ := h.exists_schema hCached
    exact ⟨s, congrArg ResolverKey.table hKey, hField⟩
  · split at hResolve
    · rename_i hLookup
      cases hResolve
      exact ⟨schema, rfl, fieldAt?_of_lookup hLookup⟩
    · cases hResolve
    · cases hResolve

/-- The kind under which a field of the base record is known: remembered, or else declared. -/
def kindOf (r : Resolver κ) (schema : RecordSchema κ) (f : FieldDef) : ColumnKind :=
  match r.cache.lookup (key schema f.name) with
  | some field => field.kind
  | none => f.kind

section
variable (hFind : schema.findField? f.name = some f) (hDot : '.' ∉ f.name.toList)
include hFind hDot

theorem kind_of_fieldAt?_name {field : ResolvedField κ}
    (h : schema.fieldAt? catalog f.name = some field) : field.kind = f.kind := by
  rw [RecordSchema.fieldAt?_of_notMem_dot hDot, hFind] at h
  cases h
  rfl

theorem Faithful.kindOf_eq {r : Resolver κ} (h : r.Faithful catalog schema) :
    r.kindOf schema f = f.kind := by
  unfold kindOf
  split
  · rename_i field hLookup
    exact kind_of_fieldAt?_name hFind hDot (h f.name field hLookup)
  · rfl

theorem kindOf_outcome_resolve (r : Resolver κ) (path : String) :
    ((resolve catalog schema path).outcome r).2.kindOf schema f = r.kindOf schema f := by
  rcases outcome_resolve_snd catalog schema r path with
    hSame | ⟨field, hAbsent, hLookup, hRemembered⟩
  · rw [hSame]
  rw [hRemembered, kindOf, kindOf, remember, List.lookup_cons]
  by_cases hPath : f.name = path
  · subst hPath
    rw [beq_self_eq_true, hAbsent]
    exact kind_of_fieldAt?_name hFind hDot (fieldAt?_of_lookup hLookup)
  · have hKey : (key schema f.name == key schema path) = false :=
      beq_false_of_ne fun hEq => hPath (congrArg ResolverKey.path hEq)
    rw [hKey]

/-- Every path to the field is resolved to the kind under which the field is known. -/
theorem Reachable.kind_of_resolve {r r' : Resolver κ} (h : r.Reachable catalog) {path : String}
    {field : ResolvedField κ}
    (hResolve : (resolve catalog schema path).outcome r = (.ok (some field), r'))
    (hHops : field.hops = []) (hLeaf : field.leaf = f.name) : field.kind = r.kindOf schema f := by
  have hPath {s : RecordSchema κ} (hField : s.fieldAt? catalog path = some field) :
      path = f.name := (s.path_eq_leaf_of_hops_eq_nil hField hHops).trans hLeaf
  rw [outcome_resolve] at hResolve
  split at hResolve
  · rename_i hCached
    cases hResolve
    obtain ⟨s, -, hField⟩ := h.exists_schema hCached
    rw [hPath hField] at hCached
    rw [kindOf, hCached]
  · rename_i hAbsent
    split at hResolve
    · rename_i hLookup
      cases hResolve
      have hField := fieldAt?_of_lookup hLookup
      rw [hPath hField] at hAbsent hField
      rw [kindOf, hAbsent]
      exact kind_of_fieldAt?_name hFind hDot hField
    · cases hResolve
    · cases hResolve

theorem Reachable.exists_of_resolve_name {r : Resolver κ} (h : r.Reachable catalog)
    (hDepth : 1 ≤ r.maxDepth) :
    ∃ field, ((resolve catalog schema f.name).outcome r).1 = .ok (some field) ∧
      field.hops = [] ∧ field.leaf = f.name := by
  have hBase {s : RecordSchema κ} {field : ResolvedField κ}
      (hField : s.fieldAt? catalog f.name = some field) :
      field.hops = [] ∧ field.leaf = f.name := by
    rw [RecordSchema.fieldAt?_of_notMem_dot hDot] at hField
    obtain ⟨g, hg, rfl⟩ := Option.map_eq_some_iff.mp hField
    exact ⟨rfl, RecordSchema.name_of_findField? hg⟩
  rw [outcome_resolve]
  split
  · rename_i field hCached
    obtain ⟨s, -, hField⟩ := h.exists_schema hCached
    exact ⟨field, rfl, hBase hField⟩
  · have hField : schema.fieldAt? catalog f.name = _ := RecordSchema.fieldAt?_of_notMem_dot hDot
    have hShort : pathDepth f.name ≤ r.maxDepth := by
      rwa [pathDepth, Text.splitDots_of_notMem_dot hDot]
    rw [hFind, Option.map_some] at hField
    rw [lookup, if_neg (Nat.not_lt.mpr hShort), hField]
    exact ⟨_, rfl, hBase hField⟩

end

/-- A resolver of some depth that some requests leave behind and that knows a field under a kind. -/
structure Knows (catalog : Catalog κ) (schema : RecordSchema κ) (f : FieldDef) (kind : ColumnKind)
    (depth : Nat) (r : Resolver κ) : Prop where
  reachable : r.Reachable catalog
  kindOf_eq : r.kindOf schema f = kind
  maxDepth_eq : r.maxDepth = depth

theorem preserves_resolve_knows {kind : ColumnKind} {depth : Nat}
    (hFind : schema.findField? f.name = some f) (hDot : '.' ∉ f.name.toList) (path : String) :
    Preserves (Knows catalog schema f kind depth) (resolve catalog schema path) := by
  intro r h
  constructor
  · exact h.reachable.resolved schema path
  · rw [kindOf_outcome_resolve hFind hDot, h.kindOf_eq]
  · rw [maxDepth_outcome_resolve, h.maxDepth_eq]

end Resolver

end RecordFilter
