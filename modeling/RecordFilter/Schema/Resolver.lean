import RecordFilter.Error
import RecordFilter.Schema.Path

/-!
# Resolving paths

A resolver limits the depth of paths, decides what becomes of unknown ones, and remembers the
fields it has resolved. Only successes are remembered, so paths that lead nowhere leave it as it
was. Its actions are state transitions that keep the resolver also when they fail.
-/

namespace RecordFilter

structure ResolverKey where
  table : String
  record : String
  path : String
deriving DecidableEq

structure Resolver (κ : Type) where
  maxDepth : Nat
  policy : UnknownFieldPolicy
  cache : List (ResolverKey × ResolvedField κ) := []

/-- Actions on a resolver. An error leaves the resolver of the moment in place. -/
abbrev Resolving (κ : Type) := ExceptT FilterError (StateM (Resolver κ))

def UnknownFieldPolicy.drop {α : Type} (p : UnknownFieldPolicy) (e : FilterError) :
    Except FilterError (Option α) :=
  match p with
  | ignore => .ok none
  | reject => .error e

namespace Resolver

variable {κ : Type} (catalog : Catalog κ)

def key (schema : RecordSchema κ) (path : String) : ResolverKey :=
  ⟨schema.table, schema.name, path⟩

/-- Resolves a field path without looking at what is remembered. -/
def lookup (r : Resolver κ) (schema : RecordSchema κ) (path : String) :
    Except FilterError (Option (ResolvedField κ)) :=
  if r.maxDepth < pathDepth path then r.policy.drop (.fieldTooDeep path r.maxDepth)
  else match schema.fieldAt? catalog path with
    | some field => .ok (some field)
    | none => r.policy.drop (.unknownField schema.name path)

def remember (r : Resolver κ) (key : ResolverKey) (field : ResolvedField κ) : Resolver κ :=
  { r with cache := (key, field) :: r.cache }

def resolve (schema : RecordSchema κ) (path : String) : Resolving κ (Option (ResolvedField κ)) := do
  let r ← get
  let key := key schema path
  match r.cache.lookup key with
  | some field => return some field
  | none =>
    let found ← r.lookup catalog schema path
    match found with
    | some field =>
      set (r.remember key field)
      return some field
    | none => return none

def lookupRelation (r : Resolver κ) (schema : RecordSchema κ) (path : String) :
    Except FilterError (Option (List (JoinSpec κ))) :=
  if r.maxDepth < pathDepth path then r.policy.drop (.fieldTooDeep path r.maxDepth)
  else match schema.joinsOf? catalog path with
    | some joins => .ok (some joins)
    | none => r.policy.drop (.unknownField schema.name path)

def resolveRelation (schema : RecordSchema κ) (path : String) :
    Resolving κ (Option (List (JoinSpec κ))) := do
  (← get).lookupRelation catalog schema path

end Resolver

end RecordFilter
