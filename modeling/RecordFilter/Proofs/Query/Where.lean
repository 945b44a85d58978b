import RecordFilter.Proofs.Condition.Rendered
import RecordFilter.Proofs.Condition.WellTyped
import RecordFilter.Proofs.Query.Compiled

/-!
# Filters in memory and as a condition on rows

Each filter becomes a predicate whose parameters are bound behind those of the filters before it.
The predicates are joined as the filters are, so a row is kept exactly when the record it stores
matches.
-/

namespace RecordFilter

open Sql

section
variable {α : Type} {row : α → StoredValue} {ps : Parameters}

theorem keeps_and (p q : Predicate α) :
    keeps (some (.and p q)) row ps = (keeps (some p) row ps && keeps (some q) row ps) := by
  simp only [keeps, Predicate.eval]
  rcases p.eval row ps with _ | _ | _ <;> rcases q.eval row ps with _ | _ | _ <;> rfl

theorem keeps_or (p q : Predicate α) :
    keeps (some (.or p q)) row ps = (keeps (some p) row ps || keeps (some q) row ps) := by
  simp only [keeps, Predicate.eval]
  rcases p.eval row ps with _ | _ | _ <;> rcases q.eval row ps with _ | _ | _ <;> rfl

theorem keeps_joinPredicates_and (predicates : List (Predicate α)) :
    keeps (CompiledQuery.joinPredicates .and predicates) row ps =
      predicates.all fun p => keeps (some p) row ps := by
  induction predicates with
  | nil => rfl
  | cons p predicates ih =>
    rw [CompiledQuery.joinPredicates, List.all_cons, ← ih]
    cases CompiledQuery.joinPredicates .and predicates with
    | none => exact (Bool.and_true _).symm
    | some rest => exact keeps_and p rest

/-- Without any predicate every row is kept, whatever the logic. -/
theorem keeps_joinPredicates_or (predicates : List (Predicate α)) :
    keeps (CompiledQuery.joinPredicates .or predicates) row ps =
      (predicates.isEmpty || predicates.any fun p => keeps (some p) row ps) := by
  induction predicates with
  | nil => rfl
  | cons p predicates ih =>
    rw [CompiledQuery.joinPredicates, List.any_cons, List.isEmpty_cons, Bool.false_or]
    cases predicates with
    | nil => exact (Bool.or_false _).symm
    | cons p' predicates =>
      rw [List.isEmpty_cons, Bool.false_or] at ih
      rw [← ih]
      obtain ⟨rest, hRest⟩ : ∃ rest,
          CompiledQuery.joinPredicates .or (p' :: predicates) = some rest := by
        rw [CompiledQuery.joinPredicates]
        split
        · exact ⟨_, rfl⟩
        · exact ⟨_, rfl⟩
      rw [hRest]
      exact keeps_or p rest

end

variable {κ : Type} {row : ColumnRef → StoredValue} {r : Record}

/-- The cell of a field's column holds what the record has there. -/
def ResolvedField.StoredIn (f : ResolvedField κ) (row : ColumnRef → StoredValue) (r : Record) :
    Prop :=
  f.kind.dataType.cell? (f.read r) = some (row f.column)

/-- No number of the record meets an operand of the filter as a real for which it is too large. -/
def CompiledFilter.MeetsExactly (f : CompiledFilter κ) (r : Record) : Prop :=
  ∀ a b, f.field.read r = .number a → .number b ∈ f.condition.condition.operands → a.MeetExactly b

namespace CompiledQuery

theorem filterPredicates_extends (ps : Parameters) (fs : List (CompiledFilter κ)) :
    (filterPredicates ps fs).2.Extends ps := by
  induction fs generalizing ps with
  | nil => exact .refl ps
  | cons f fs ih => exact (ih _).trans (Condition.predicateOrNull_extends _ ps _)

theorem map_keeps_filterPredicates {fs : List (CompiledFilter κ)}
    (hSource : ∀ f ∈ fs, ∃ source : FieldFilter, source.compile f.field.kind = .ok f.condition)
    (hStored : ∀ f ∈ fs, f.field.StoredIn row r) (hExact : ∀ f ∈ fs, f.MeetsExactly r)
    {ps later : Parameters} (hLater : later.Extends (filterPredicates ps fs).2) :
    (filterPredicates ps fs).1.map (fun p => keeps (some p) row later) =
      fs.map fun f => f.matchesRecord r := by
  induction fs generalizing ps with
  | nil => rfl
  | cons f fs ih =>
    obtain ⟨source, hCompile⟩ := hSource f List.mem_cons_self
    obtain ⟨hProjection, hType, -⟩ := FieldFilter.of_compile hCompile
    have hHead := CompiledCondition.eval_predicateOrNull_iff
      (FieldFilter.fits_compile hCompile) (hType ▸ hProjection) (hStored f List.mem_cons_self)
      (hExact f List.mem_cons_self) (hLater.trans (filterPredicates_extends _ fs))
    have hRest := ih (fun g hg => hSource g (List.mem_cons_of_mem _ hg))
      (fun g hg => hStored g (List.mem_cons_of_mem _ hg))
      (fun g hg => hExact g (List.mem_cons_of_mem _ hg)) hLater
    rw [List.map_cons, ← hRest, filterPredicates, List.map_cons]
    refine congrArg (· :: _) ?_
    rw [Bool.eq_iff_iff, keeps, beq_iff_eq]
    exact hHead

theorem keeps_condition {q : CompiledQuery κ}
    (hSource : ∀ f ∈ q.filters,
      ∃ source : FieldFilter, source.compile f.field.kind = .ok f.condition)
    (hStored : ∀ f ∈ q.filters, f.field.StoredIn row r)
    (hExact : ∀ f ∈ q.filters, f.MeetsExactly r) (d : Dialect) :
    keeps (q.toSql d).condition row (q.toSql d).parameters = q.matchesRecord r := by
  have hEach := map_keeps_filterPredicates hSource hStored hExact
    (Parameters.Extends.refl (filterPredicates {} q.filters).2)
  change keeps (joinPredicates q.logic (filterPredicates {} q.filters).1) row
    (filterPredicates {} q.filters).2 = _
  rw [matchesRecord]
  cases q.logic with
  | and =>
    have hAll := congrArg (fun answers => answers.all id) hEach
    rw [List.all_map, List.all_map] at hAll
    exact (keeps_joinPredicates_and _).trans hAll
  | or =>
    have hAny := congrArg (fun answers => answers.any id) hEach
    have hEmpty := congrArg List.isEmpty hEach
    rw [List.any_map, List.any_map] at hAny
    rw [List.isEmpty_map, List.isEmpty_map] at hEmpty
    exact (keeps_joinPredicates_or _).trans (congrArg₂ or hEmpty hAny)

end CompiledQuery

end RecordFilter
