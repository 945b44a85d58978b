import RecordFilter.Engine
import RecordFilter.Proofs.Memory.Evaluate
import RecordFilter.Proofs.Query.PrimaryKey
import RecordFilter.Proofs.Schema.Known

/-!
# Permuted records

The sort keys of a query always hold a key on the primary key of the base record, whatever was asked
for. If it tells the records apart, they are sorted in one way only, and the answer does not show
in which order they came. What counts is the kind under which the resolver knows the primary key.
-/

namespace RecordFilter

open MemoryEvaluator Resolving

section
variable {κ ρ : Type} {catalog : Catalog κ} {schema : RecordSchema κ} {key : FieldDef}

namespace Specification

variable {spec : Specification} {q : CompiledQuery κ} {r r' : Resolver κ}

theorem exists_base_key_of_compile (hReachable : r.Reachable catalog) (hDepth : 1 ≤ r.maxDepth)
    (hKey : schema.primaryKeyField? = some key) (hDot : '.' ∉ key.name.toList)
    (h : (spec.compile catalog schema).outcome r = (.ok q, r')) :
    ∃ k ∈ q.sort, k.field.hops = [] ∧ k.field.leaf = key.name ∧
      k.dataType = (r.kindOf schema key).dataType := by
  have hFind := RecordSchema.findField?_of_primaryKeyField? hKey
  have hResolve : ∀ path, Preserves
      (Resolver.Knows catalog schema key (r.kindOf schema key) r.maxDepth)
      (Resolver.resolve catalog schema path) := Resolver.preserves_resolve_knows hFind hDot
  obtain ⟨filters, keys, last, preloads, r₁, r₂, r₃, hFirst, hSecond, -, hKeys, hLast, -, rfl⟩ :=
    of_compile_of_preserves hResolve ⟨hReachable, rfl, rfl⟩ h
  rcases exists_base_key_or_resolved_of_tieBreak hKey hLast with
    ⟨k, hk, hHops, hLeaf⟩ | ⟨found, r₄, hFound, rfl⟩
  · have hKinds : ∀ k ∈ keys, k.field.hops = [] → k.field.leaf = key.name →
        k.field.kind = r.kindOf schema key := by
      refine forall_field_of_compileSort (Q := fun field => field.hops = [] →
        field.leaf = key.name → field.kind = r.kindOf schema key) hResolve ?_ hFirst hKeys
      intro path s s' field hs hFound hHops hLeaf
      rw [hs.reachable.kind_of_resolve hFind hDot hFound hHops hLeaf, hs.kindOf_eq]
    refine ⟨k, List.mem_append_left _ hk, hHops, hLeaf, ?_⟩
    rw [dataType_of_compileSort hKeys k hk, hKinds k hk hHops hLeaf]
  · obtain ⟨field, hResolved, hHops, hLeaf⟩ := hSecond.reachable.exists_of_resolve_name hFind hDot
      (hSecond.maxDepth_eq ▸ hDepth)
    rw [hFound] at hResolved
    cases hResolved
    have hKind := (hSecond.reachable.kind_of_resolve hFind hDot hFound hHops hLeaf).trans
      hSecond.kindOf_eq
    exact ⟨_, List.mem_append_right _ List.mem_cons_self, hHops, hLeaf,
      congrArg ColumnKind.dataType hKind⟩

end Specification

namespace MemoryEvaluator

variable (e : MemoryEvaluator) {q : CompiledQuery κ} {view : ρ → Record}

theorem evaluate_eq_of_untied {records records' : List ρ} (hPerm : records.Perm records')
    (hOrder : q.IsPreorderOn view records)
    (hUntied : records.Pairwise fun a b => q.order (view a) (view b) ≠ .eq) :
    e.evaluate q view records = e.evaluate q view records' := by
  have hMatching : (e.evaluate q view records').Perm (matching q view records) :=
    (e.evaluate_perm q view records').trans (hPerm.symm.filter _)
  have hOrder' : PreorderOn (mayPrecede q view) records' :=
    hOrder.preorderOn.mono fun _ ha => hPerm.symm.subset ha
  exact hOrder.sorted_unique hUntied (e.evaluate_perm q view records) hMatching
    (e.pairwise_evaluate q view hOrder.preorderOn) (e.pairwise_evaluate q view hOrder')

/-- Records that the primary key tells apart are answered alike in whatever order they come. Every
resolver knows the key under some kind, a faithful one under the declared kind. -/
theorem evaluate_eq_of_perm {spec : Specification} {r r' : Resolver κ}
    (hReachable : r.Reachable catalog) (hDepth : 1 ≤ r.maxDepth)
    (hKey : schema.primaryKeyField? = some key) (hDot : '.' ∉ key.name.toList)
    (hCompile : (spec.compile catalog schema).outcome r = (.ok q, r')) :
    (r.Faithful catalog schema → r.kindOf schema key = key.kind) ∧
      (∃ k ∈ q.sort, k.field.hops = [] ∧ k.field.leaf = key.name ∧
        k.dataType = (r.kindOf schema key).dataType) ∧
      ∀ records records' : List ρ, records.Perm records' →
        (records.Pairwise fun a b => (r.kindOf schema key).dataType.order .asc
          ((view a).field key.name) ((view b).field key.name) ≠ .eq) →
        q.IsPreorderOn view records →
        e.evaluate q view records = e.evaluate q view records' ∧
          ∀ p, e.paginate q view records p = e.paginate q view records' p := by
  have hBase := Specification.exists_base_key_of_compile hReachable hDepth hKey hDot hCompile
  refine ⟨Resolver.Faithful.kindOf_eq (RecordSchema.findField?_of_primaryKeyField? hKey) hDot,
    hBase, ?_⟩
  obtain ⟨k, hk, hHops, hLeaf, hType⟩ := hBase
  intro records records' hPerm hDistinct hOrder
  have hUntied : records.Pairwise fun a b => q.order (view a) (view b) ≠ .eq := by
    refine hDistinct.imp fun hApart hTied => hApart ?_
    have hKeyTied := orderByKeys_eq_eq hTied k hk
    rw [SortKey.order, hType, ResolvedField.read, ResolvedField.read, hHops, hLeaf] at hKeyTied
    exact DataType.order_asc_eq_eq hKeyTied
  have hSame := e.evaluate_eq_of_untied hPerm hOrder hUntied
  refine ⟨hSame, fun p => ?_⟩
  rw [paginate, paginate, hSame]

end MemoryEvaluator

end

namespace Tickets

def tickets : RecordSchema Unit :=
  { name := "Ticket", table := "tickets", primaryKey := some "id"
    fields := [⟨"id", "id", .integer⟩, ⟨"title", "title", .text⟩] }

/-- An earlier description of the table, with a textual key. -/
def archived : RecordSchema Unit :=
  { name := "Ticket", table := "tickets", fields := [⟨"id", "id", .text⟩] }

def catalog : Catalog Unit := fun _ => tickets

def key : FieldDef := ⟨"id", "id", .integer⟩

def ticket (n : Int) : Record :=
  .mk [("id", .number (.int (.ofInt n))), ("title", .text (if n % 2 = 0 then "even" else "odd"))] []

def byTitle : Specification := { sort := [⟨"title", .desc⟩, ⟨"owner", .asc⟩, ⟨"title", .asc⟩] }

def idField (kind : ColumnKind) : ResolvedField Unit :=
  ⟨"id", [], "id", kind, ⟨"tickets", "id"⟩, []⟩

def titleField : ResolvedField Unit := ⟨"title", [], "title", .text, ⟨"tickets", "title"⟩, []⟩

def query (sort : List (SortKey Unit)) : CompiledQuery Unit :=
  { schema := tickets, logic := .and, filters := [], sort, joins := [] }

def byTitleQuery : CompiledQuery Unit :=
  query [⟨titleField, .text, .desc⟩, ⟨titleField, .text, .asc⟩, ⟨idField .integer, .number, .asc⟩]

def fresh : Resolver Unit := Settings.resolver {} Unit

/-- A resolver that has met the archived tickets before. -/
def used : Resolver Unit := ((Resolver.resolve catalog archived "id").outcome fresh).2

def evaluator : MemoryEvaluator := { parallelMin := 1000 }

/-- The titles leave ties among four tickets, and the key settles them. -/
theorem evaluate_by_title :
    (byTitle.compile catalog tickets).outcome fresh =
      (.ok byTitleQuery, ((byTitle.compile catalog tickets).outcome fresh).2) ∧
    evaluator.evaluate byTitleQuery ticket [4, 1, 3, 2] =
      evaluator.evaluate byTitleQuery ticket [1, 2, 3, 4] := by
  have hKey : tickets.primaryKeyField? = some key := rfl
  have hCompile : (byTitle.compile catalog tickets).outcome fresh =
    (.ok byTitleQuery, ((byTitle.compile catalog tickets).outcome fresh).2) := rfl
  have hOrder : byTitleQuery.IsPreorderOn ticket [4, 1, 3, 2] := ⟨by decide, by decide⟩
  refine ⟨hCompile, ?_⟩
  exact ((evaluator.evaluate_eq_of_perm (.fresh rfl) (by decide) hKey (by decide) hCompile).2.2
    [4, 1, 3, 2] [1, 2, 3, 4] (by decide) (by decide) hOrder).1

/-- Where the key is known as text, it does not tell two numbers apart. -/
theorem order_shows_after_archive :
    used.Reachable catalog ∧ 1 ≤ used.maxDepth ∧ tickets.primaryKeyField? = some key ∧
    '.' ∉ key.name.toList ∧
    (∃ r', (({} : Specification).compile catalog tickets).outcome used =
      (.ok (query [⟨idField .text, .text, .asc⟩]), r')) ∧
    (query [⟨idField .text, .text, .asc⟩]).IsPreorderOn ticket [2, 1] ∧
    key.kind.dataType.order .asc ((ticket 2).field key.name) ((ticket 1).field key.name) ≠ .eq ∧
    evaluator.evaluate (query [⟨idField .text, .text, .asc⟩]) ticket [2, 1] ≠
      evaluator.evaluate (query [⟨idField .text, .text, .asc⟩]) ticket [1, 2] := by
  refine ⟨(Resolver.Reachable.fresh rfl).resolved archived "id", ?_, rfl, ?_, ⟨_, rfl⟩, ?_, ?_, ?_⟩
  · exact Nat.le_of_ble_eq_true rfl
  · decide
  · exact ⟨by decide, by decide⟩
  · decide
  · decide

end Tickets

end RecordFilter
