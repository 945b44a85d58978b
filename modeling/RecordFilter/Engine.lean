import RecordFilter.Estimate
import RecordFilter.Memory
import RecordFilter.Query.Compile
import RecordFilter.Settings
import RecordFilter.Sql.Lowering

/-!
# The engine

The engine joins settings, path resolution and the two backends. Every way of finding records
compiles the specification alike and normalizes the page request by the same rule, so a validation
error never depends on the backend.
-/

namespace RecordFilter

def Settings.resolver (s : Settings) (κ : Type) : Resolver κ :=
  { maxDepth := s.maxDepth, policy := s.unknownFields }

structure Engine where
  settings : Settings := {}
  /-- How many workers share the evaluation in memory. -/
  workers : Nat := 1

namespace Engine

variable {κ ρ : Type} (e : Engine)

def evaluator : MemoryEvaluator := ⟨e.settings.parallelMinRecords, e.workers⟩

def page (request : PageRequest) : Page := request.normalize e.settings.defaultPageSize

def selectBackend (estimator : Estimator) (schema : RecordSchema κ) : Backend :=
  .select e.settings.hybridThreshold (estimator.estimate schema.table)

section
variable (catalog : Catalog κ) (schema : RecordSchema κ)

def toSql (d : Dialect) (spec : Specification) : Resolving κ Sql.Query := do
  return (← spec.compile catalog schema).toSql d

def findInMemory (view : ρ → Record) (records : List ρ) (spec : Specification)
    (request : PageRequest) : Resolving κ (PageResult ρ) := do
  let q ← spec.compile catalog schema
  return e.evaluator.paginate q view records (e.page request)

def findRelational (c : Sql.Connection ρ) (spec : Specification) (request : PageRequest) :
    Resolving κ (PageResult ρ) := do
  let q ← toSql catalog schema .sqlite spec
  (c.fetchPage q (e.page request) : Except FilterError (PageResult ρ))

def runOn (backend : Backend) (view : ρ → Record) (c : Sql.Connection ρ) (q : CompiledQuery κ)
    (p : Page) : Except FilterError (PageResult ρ) :=
  match backend with
  | .relational => c.fetchPage (q.toSql .sqlite) p
  | .memory => do
    let records ← c.fetchAll (q.toUnfilteredSql .sqlite).rowsText
    return e.evaluator.paginateOwned q view records p

def findHybrid (view : ρ → Record) (c : Sql.Connection ρ) (estimator : Estimator)
    (spec : Specification) (request : PageRequest) : Resolving κ (PageResult ρ) := do
  let q ← spec.compile catalog schema
  e.runOn (e.selectBackend estimator schema) view c q (e.page request)

end

end Engine

end RecordFilter
