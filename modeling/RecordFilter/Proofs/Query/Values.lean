import Mathlib.Data.List.Forall2
import RecordFilter.Proofs.Condition.Shape
import RecordFilter.Proofs.Query.Restricted
import RecordFilter.Proofs.Query.WhereText

/-!
# Values and the text of a query

Two specifications that differ at most in the values of their filters are compiled to queries that
differ at most in what their conditions compare with, and such queries are rendered as the same
text. What a value is can be seen in the parameters only, and not in their number.
-/

namespace RecordFilter

open Sql Resolving

/-- The specifications differ at most in the values of their filters. -/
structure Specification.SameButValues (s s' : Specification) : Prop where
  logic_eq : s.logic = s'.logic
  filters : List.Forall₂ FieldFilter.SameButValue s.filters s'.filters
  sort_eq : s.sort = s'.sort
  preload_eq : s.preload = s'.preload

section
variable {κ : Type}

structure CompiledFilter.SameButOperands (f f' : CompiledFilter κ) : Prop where
  field_eq : f.field = f'.field
  projection_eq : f.condition.projection = f'.condition.projection
  sameShape : f.condition.condition.SameShape f'.condition.condition

/-- The queries differ at most in what their conditions compare with. -/
structure CompiledQuery.SameButOperands (q q' : CompiledQuery κ) : Prop where
  schema_eq : q.schema = q'.schema
  logic_eq : q.logic = q'.logic
  filters : List.Forall₂ CompiledFilter.SameButOperands q.filters q'.filters
  sort_eq : q.sort = q'.sort
  joins_eq : q.joins = q'.joins

theorem map_field_of_sameButOperands {fs fs' : List (CompiledFilter κ)}
    (h : List.Forall₂ CompiledFilter.SameButOperands fs fs') :
    fs.map (·.field) = fs'.map (·.field) := by
  induction h with
  | nil => rfl
  | cons hFirst _ ih => rw [List.map_cons, List.map_cons, hFirst.field_eq, ih]

namespace Specification

variable {catalog : Catalog κ} {schema : RecordSchema κ} {r r' t t' : Resolver κ}

open Resolver

theorem sameButOperands_of_compileFilters {fs fs' : List FieldFilter}
    (hSame : List.Forall₂ FieldFilter.SameButValue fs fs') (hAlike : r.Alike catalog schema r')
    {filters filters' : List (CompiledFilter κ)}
    (h : (compileFilters catalog schema fs).outcome r = (.ok filters, t))
    (h' : (compileFilters catalog schema fs').outcome r' = (.ok filters', t')) :
    List.Forall₂ CompiledFilter.SameButOperands filters filters' ∧ t.Alike catalog schema t' := by
  induction hSame generalizing r r' filters filters' with
  | nil =>
    rw [compileFilters] at h h'
    obtain ⟨rfl, rfl⟩ := outcome_pure_eq_ok.mp h
    obtain ⟨rfl, rfl⟩ := outcome_pure_eq_ok.mp h'
    exact ⟨.nil, hAlike⟩
  | @cons f f' fs fs' hFirst _ ih =>
    rw [compileFilters] at h h'
    obtain ⟨found, r₁, hFound, h⟩ := outcome_bind_eq_ok.mp h
    obtain ⟨found', r₁', hFound', h'⟩ := outcome_bind_eq_ok.mp h'
    rw [← hFirst.field_eq] at hFound'
    obtain ⟨rfl, hNext⟩ :=
      (agree_resolve_of_alike f.field).eq_of_outcome_eq hAlike hFound hFound'
    -- The path is the same, so a filter that is dropped is dropped on both sides.
    cases found with
    | none => exact ih hNext h h'
    | some field =>
      obtain ⟨condition, r₂, hCondition, h⟩ := outcome_bind_eq_ok.mp h
      obtain ⟨condition', r₂', hCondition', h'⟩ := outcome_bind_eq_ok.mp h'
      rw [outcome_liftExcept] at hCondition hCondition'
      obtain ⟨hCompile, rfl⟩ := Prod.mk.inj hCondition
      obtain ⟨hCompile', rfl⟩ := Prod.mk.inj hCondition'
      obtain ⟨hProjection, hShape⟩ := hFirst.sameShape_compile hCompile hCompile'
      obtain ⟨rest, r₃, hRest, h⟩ := outcome_bind_eq_ok.mp h
      obtain ⟨rest', r₃', hRest', h'⟩ := outcome_bind_eq_ok.mp h'
      obtain ⟨rfl, rfl⟩ := outcome_pure_eq_ok.mp h
      obtain ⟨rfl, rfl⟩ := outcome_pure_eq_ok.mp h'
      obtain ⟨hTail, hLast⟩ := ih hNext hRest hRest'
      exact ⟨.cons ⟨rfl, hProjection, hShape⟩ hTail, hLast⟩

theorem sameButOperands_of_compile {s s' : Specification} (hSame : s.SameButValues s')
    (hAlike : r.Alike catalog schema r') {q q' : CompiledQuery κ}
    (h : (s.compile catalog schema).outcome r = (.ok q, t))
    (h' : (s'.compile catalog schema).outcome r' = (.ok q', t')) : q.SameButOperands q' := by
  obtain ⟨filters, keys, last, preloads, r₁, r₂, r₃, hFilters, hKeys, hLast, hPreloads, rfl⟩ :=
    of_compile h
  obtain ⟨filters', keys', last', preloads', r₁', r₂', r₃', hFilters', hKeys', hLast', hPreloads',
    rfl⟩ := of_compile h'
  rw [← hSame.sort_eq] at hKeys'
  rw [← hSame.preload_eq] at hPreloads'
  obtain ⟨hConditions, hAlike⟩ :=
    sameButOperands_of_compileFilters hSame.filters hAlike hFilters hFilters'
  obtain ⟨rfl, hAlike⟩ :=
    (agree_compileSort_self fun k _ => agree_resolve_of_alike k.field).eq_of_outcome_eq hAlike
      hKeys hKeys'
  obtain ⟨rfl, hAlike⟩ :=
    (agree_tieBreak (fun key _ => agree_resolve_of_alike key.name) keys).eq_of_outcome_eq hAlike
      hLast hLast'
  obtain ⟨rfl, -⟩ :=
    (agree_compilePreload_self fun path _ => agree_resolveRelation_of_alike path).eq_of_outcome_eq
      hAlike hPreloads hPreloads'
  have hFields := map_field_of_sameButOperands hConditions
  refine ⟨rfl, hSame.logic_eq, hConditions, rfl, ?_⟩
  have hJoins (fs : List (CompiledFilter κ)) :
      fs.flatMap (·.field.joins) = (fs.map (·.field)).flatMap (·.joins) := by
    rw [List.flatMap_map]
  rw [hJoins, hJoins, hFields]

end Specification

namespace CompiledQuery

theorem filterPredicates_of_sameButOperands {fs fs' : List (CompiledFilter κ)}
    (h : List.Forall₂ CompiledFilter.SameButOperands fs fs') {ps ps' : Parameters}
    (hSize : ps.size = ps'.size) :
    (filterPredicates ps fs).1 = (filterPredicates ps' fs').1 ∧
      (filterPredicates ps fs).2.size = (filterPredicates ps' fs').2.size := by
  induction h generalizing ps ps' with
  | nil => exact ⟨rfl, hSize⟩
  | @cons f f' fs fs' hFirst _ ih =>
    obtain ⟨hPredicate, hNext⟩ := hFirst.sameShape.predicateOrNull
      (f'.condition.projection.term f'.field.column) hSize
    rw [← hFirst.field_eq, ← hFirst.projection_eq] at hPredicate hNext
    obtain ⟨hRest, hLast⟩ := ih hNext
    simp only [filterPredicates]
    rw [← hFirst.field_eq, ← hFirst.projection_eq, hPredicate, hRest]
    exact ⟨rfl, hLast⟩

variable {q q' : CompiledQuery κ}

theorem SameButOperands.toSql_eq (h : q.SameButOperands q') (d : Dialect) :
    q'.toSql d = { q.toSql d with parameters := (q'.toSql d).parameters } ∧
      (q.toSql d).parameters.size = (q'.toSql d).parameters.size := by
  have hNone : Parameters.size {} = Parameters.size {} := rfl
  obtain ⟨hPredicates, hSize⟩ := filterPredicates_of_sameButOperands h.filters hNone
  refine ⟨?_, hSize⟩
  simp only [toSql, h.schema_eq, h.logic_eq, h.sort_eq, h.joins_eq, hPredicates]

theorem SameButOperands.toUnfilteredSql_eq (h : q.SameButOperands q') (d : Dialect) :
    q.toUnfilteredSql d = q'.toUnfilteredSql d := by
  obtain ⟨hSql, -⟩ := h.toSql_eq d
  rw [toUnfilteredSql, toUnfilteredSql, hSql, h.schema_eq]

end CompiledQuery

/-- Specifications that differ at most in the values of their filters are sent to a database as the
same text, with as many parameters. -/
theorem texts_eq_of_sameButValues {catalog : Catalog κ} {schema : RecordSchema κ}
    {r r' t t' : Resolver κ} {s s' : Specification} {q q' : CompiledQuery κ}
    (hSame : s.SameButValues s') (hAlike : r.Alike catalog schema r')
    (h : (s.compile catalog schema).outcome r = (.ok q, t))
    (h' : (s'.compile catalog schema).outcome r' = (.ok q', t')) (d : Dialect) (page : Page) :
    (q.toSql d).tableText = (q'.toSql d).tableText ∧
      (q.toSql d).joinTexts = (q'.toSql d).joinTexts ∧
      (q.toSql d).selectText = (q'.toSql d).selectText ∧
      (q.toSql d).whereText? = (q'.toSql d).whereText? ∧
      (q.toSql d).orderText = (q'.toSql d).orderText ∧
      (q.toSql d).countText = (q'.toSql d).countText ∧
      (q.toSql d).pageText page = (q'.toSql d).pageText page ∧
      (q.toUnfilteredSql d).rowsText = (q'.toUnfilteredSql d).rowsText ∧
      (q.toSql d).parameters.size = (q'.toSql d).parameters.size := by
  have hQueries := Specification.sameButOperands_of_compile hSame hAlike h h'
  obtain ⟨hSql, hSize⟩ := hQueries.toSql_eq d
  rw [hQueries.toUnfilteredSql_eq d, hSize, hSql]
  exact ⟨rfl, rfl, rfl, rfl, rfl, rfl, rfl, rfl, rfl⟩

end

namespace Visits

/-- The filters of `afternoon` on a needle that would be SQL of its own and on another time. -/
def hostile : Specification :=
  { filters := [
      { field := "owner.name", mode := .notContains, dataType := .text
        value := some (.scalar (.text "x') OR 1 = 1; --")) },
      { field := "start", mode := .greaterOrEqual, dataType := .time
        value := some (.scalar (.text "23:59:59")) }] }

def hostileQuery : CompiledQuery Unit :=
  { afternoonQuery with
    filters := [⟨ownerName, .text, .identity, .text .contains "x') or 1 = 1; --" true⟩,
      ⟨start, .time, .timeOfDay, .compare .ge (.micros 86399000000)⟩] }

theorem texts_of_hostile :
    (hostileQuery.toSql .postgres).countText = (afternoonQuery.toSql .postgres).countText ∧
      (hostileQuery.toSql .postgres).parameters.values =
        [.text "%x') or 1 = 1; --%", .int 86399000000] := by
  have hSame : hostile.SameButValues afternoon :=
    ⟨rfl, .cons ⟨rfl, rfl, rfl⟩ (.cons ⟨rfl, rfl, rfl⟩ .nil), rfl, rfl⟩
  have hHostile : ∃ t, (hostile.compile catalog visits).outcome resolver = (.ok hostileQuery, t) :=
    ⟨_, rfl⟩
  have hAfternoon : ∃ t, (afternoon.compile catalog visits).outcome resolver =
      (.ok afternoonQuery, t) := ⟨_, rfl⟩
  obtain ⟨t, hHostile⟩ := hHostile
  obtain ⟨t', hAfternoon⟩ := hAfternoon
  obtain ⟨-, -, -, -, -, hCount, -⟩ :=
    texts_eq_of_sameButValues hSame (.refl resolver) hHostile hAfternoon .postgres ⟨0, 10⟩
  exact ⟨hCount, rfl⟩

end Visits

end RecordFilter
