import RecordFilter.Proofs.Query.Where
import RecordFilter.Proofs.Sql.Clauses

/-!
# The WHERE clause as text

The clause of a compiled query puts its parentheses where they are needed and numbers its parameters
in the order in which they stand. Read back as SQL, it holds of a row exactly when the record stored
there matches.
-/

namespace RecordFilter

open Sql

section
variable {α : Type} {e : Term α} (ps : Parameters)

theorem Projection.positions_term (p : Projection) (column : α) : (p.term column).positions = [] := by
  cases p <;> rfl

namespace Condition

theorem wellGrouped_negateIf {negated : Bool} {p : Predicate α} (h : p.wellGrouped = true) :
    (negateIf negated p).wellGrouped = true := by
  cases negated <;> exact h

theorem positions_negateIf (negated : Bool) (p : Predicate α) :
    (negateIf negated p).positions = p.positions := by
  cases negated <;> rfl

theorem wellGrouped_predicate (c : Condition) : (c.predicate e ps).1.wellGrouped = true := by
  cases c with
  | empty negated blankText => cases negated <;> cases blankText <;> rfl
  | text test needle negated =>
    refine wellGrouped_negateIf ?_
    cases test <;> rfl
  | compare op operand => rfl
  | within lower upper upperInclusive negated => exact wellGrouped_negateIf rfl

/-- The parameters of a condition are bound behind those so far, as they stand. -/
theorem countsFrom_predicate (he : e.positions = []) (c : Condition) :
    CountsFrom ps.size (c.predicate e ps).1.positions ∧
      (c.predicate e ps).2.size = ps.size + (c.predicate e ps).1.positions.length := by
  cases c with
  | empty negated blankText =>
    cases negated <;> cases blankText <;>
      simp [predicate, Predicate.positions, Term.positions, he, countsFrom_nil]
  | text test needle negated =>
    have hPositions (p : Predicate α) (hp : p.positions = [ps.size + 1]) :
        CountsFrom ps.size (negateIf negated p).positions ∧
          (ps.push (.text (test.pattern needle))).1.size =
            ps.size + (negateIf negated p).positions.length := by
      rw [positions_negateIf, hp]
      exact ⟨rfl, List.length_append⟩
    cases test <;> exact hPositions _ (by
      simp [Predicate.positions, Term.positions, he])
  | compare op operand =>
    simp [predicate, Predicate.positions, Term.positions, he, Parameters.bind, Parameters.push,
      Parameters.size, CountsFrom]
  | within lower upper upperInclusive negated =>
    simp [predicate, positions_negateIf, Predicate.positions, Term.positions, he, Parameters.bind,
      Parameters.push, Parameters.size, CountsFrom, List.range'_succ]

theorem wellGrouped_predicateOrNull (c : Condition) :
    (c.predicateOrNull e ps).1.wellGrouped = true := by
  have h := c.wellGrouped_predicate ps (e := e)
  simp only [predicateOrNull]
  split
  · simpa [Predicate.wellGrouped, Predicate.level, Level.height] using h
  · exact h

theorem countsFrom_predicateOrNull (he : e.positions = []) (c : Condition) :
    CountsFrom ps.size (c.predicateOrNull e ps).1.positions ∧
      (c.predicateOrNull e ps).2.size = ps.size + (c.predicateOrNull e ps).1.positions.length := by
  have h := c.countsFrom_predicate ps he
  simp only [predicateOrNull]
  split
  · simpa [Predicate.positions, he] using h
  · exact h

end Condition

end

namespace CompiledQuery

section
variable {α : Type} {logic : Logic} {predicates : List (Predicate α)} {p : Predicate α}

theorem flatMap_joinPredicates {β : Type} {f : Predicate α → List β}
    (hAnd : ∀ p q, f (.and p q) = f p ++ f q) (hOr : ∀ p q, f (.or p q) = f p ++ f q) :
    ((joinPredicates logic predicates).map f).getD [] = predicates.flatMap f := by
  induction predicates with
  | nil => rfl
  | cons first predicates ih =>
    rw [joinPredicates, List.flatMap_cons, ← ih]
    cases joinPredicates logic predicates with
    | none => exact (List.append_nil _).symm
    | some rest =>
      cases logic with
      | and => exact hAnd first rest
      | or => exact hOr first rest

theorem positions_joinPredicates (h : joinPredicates logic predicates = some p) :
    p.positions = predicates.flatMap Predicate.positions := by
  have hAll : ((joinPredicates logic predicates).map Predicate.positions).getD [] =
      predicates.flatMap Predicate.positions := flatMap_joinPredicates (fun _ _ => rfl) fun _ _ => rfl
  rwa [h] at hAll

theorem wellGrouped_joinPredicates
    (hEach : ∀ q ∈ predicates, q.level = .primary ∧ q.wellGrouped = true)
    (h : joinPredicates logic predicates = some p) :
    p.wellGrouped = true ∧ (logic = .and → p.level.height ≤ Level.conjunction.height) := by
  induction predicates generalizing p with
  | nil => cases h
  | cons first predicates ih =>
    obtain ⟨hLevel, hGrouped⟩ := hEach first List.mem_cons_self
    rw [joinPredicates] at h
    split at h
    · cases h
      refine ⟨hGrouped, ?_⟩
      intro _
      rw [hLevel]
      decide
    · rename_i rest hRest
      obtain ⟨hGroupedRest, hLevelRest⟩ := ih (fun q hq => hEach q (List.mem_cons_of_mem _ hq)) hRest
      cases h
      cases logic with
      | and =>
        have hHeight := hLevelRest rfl
        refine ⟨?_, fun _ => Nat.le_refl 5⟩
        simp only [Predicate.wellGrouped, hLevel, hGrouped, hGroupedRest, hHeight, decide_true]
        rfl
      | or =>
        refine ⟨?_, fun h => Logic.noConfusion h⟩
        simp only [Predicate.wellGrouped, hLevel, hGrouped, hGroupedRest]
        rfl

end

variable {κ : Type}

theorem wellGrouped_filterPredicates (ps : Parameters) (fs : List (CompiledFilter κ)) :
    ∀ p ∈ (filterPredicates ps fs).1, p.level = .primary ∧ p.wellGrouped = true := by
  induction fs generalizing ps with
  | nil =>
    intro p hp
    cases hp
  | cons f fs ih =>
    intro p hp
    rcases List.mem_cons.mp hp with rfl | hp
    · exact ⟨rfl, f.condition.condition.wellGrouped_predicateOrNull ps⟩
    · exact ih _ p hp

theorem countsFrom_filterPredicates (ps : Parameters) (fs : List (CompiledFilter κ)) :
    CountsFrom ps.size ((filterPredicates ps fs).1.flatMap Predicate.positions) := by
  induction fs generalizing ps with
  | nil => exact countsFrom_nil _
  | cons f fs ih =>
    obtain ⟨hFirst, hSize⟩ := f.condition.condition.countsFrom_predicateOrNull ps
      (f.condition.projection.positions_term f.field.column)
    have hRest := ih (f.condition.condition.predicateOrNull
      (f.condition.projection.term f.field.column) ps).2
    rw [hSize] at hRest
    rw [filterPredicates, List.flatMap_cons]
    exact countsFrom_append.mpr ⟨hFirst, hRest⟩

theorem size_filterPredicates (ps : Parameters) (fs : List (CompiledFilter κ)) :
    (filterPredicates ps fs).2.size =
      ps.size + ((filterPredicates ps fs).1.flatMap Predicate.positions).length := by
  induction fs generalizing ps with
  | nil => rfl
  | cons f fs ih =>
    obtain ⟨-, hSize⟩ := f.condition.condition.countsFrom_predicateOrNull ps
      (f.condition.projection.positions_term f.field.column)
    have hRest := ih (f.condition.condition.predicateOrNull
      (f.condition.projection.term f.field.column) ps).2
    rw [hSize, Nat.add_assoc, ← List.length_append] at hRest
    exact hRest

section
variable {q : CompiledQuery κ} {d : Dialect} {p : Predicate ColumnRef}
  (h : (q.toSql d).condition = some p)
include h

theorem wellGrouped_condition : p.wellGrouped = true := by
  have hJoined : joinPredicates q.logic (filterPredicates {} q.filters).1 = some p := h
  exact (wellGrouped_joinPredicates (wellGrouped_filterPredicates {} q.filters) hJoined).1

theorem countsFrom_condition : CountsFrom 0 p.positions := by
  have hJoined : joinPredicates q.logic (filterPredicates {} q.filters).1 = some p := h
  have hPositions := countsFrom_filterPredicates {} q.filters
  rwa [← positions_joinPredicates hJoined] at hPositions

/-- The condition of a compiled query is read back from its text, but for its parentheses. -/
theorem readCondition?_condition : readCondition? d (p.text d columnText) = some p.ungrouped :=
  p.readCondition?_text d (wellGrouped_condition h) (countsFrom_condition h)

end

/-- Whether a WHERE clause, read by the dialect, is true of a row; where there is no clause, it is.
Nothing is said of a clause that cannot be read. -/
def clauseHolds? (d : Dialect) (clause : Option String) (row : ColumnRef → StoredValue)
    (ps : Parameters) : Option Bool :=
  match clause with
  | none => some true
  | some text => (readCondition? d text).map fun p => keeps (some p) row ps

theorem clauseHolds?_whereText (q : CompiledQuery κ) (d : Dialect) (row : ColumnRef → StoredValue) :
    clauseHolds? d (q.toSql d).whereText? row (q.toSql d).parameters =
      some (keeps (q.toSql d).condition row (q.toSql d).parameters) := by
  rw [Sql.Query.whereText?]
  cases hCondition : (q.toSql d).condition with
  | none => rfl
  | some p =>
    change (readCondition? d (p.text d columnText)).map _ = _
    rw [readCondition?_condition hCondition, Option.map_some, keeps, keeps,
      Predicate.eval_ungrouped]

/-- The WHERE clause of a compiled query selects the rows whose records match. -/
theorem clauseHolds?_of_compile {catalog : Catalog κ} {schema : RecordSchema κ}
    {spec : Specification} {q : CompiledQuery κ} {resolver resolver' : Resolver κ}
    (hCompile : (spec.compile catalog schema).outcome resolver = (.ok q, resolver'))
    (d : Dialect) {row : ColumnRef → StoredValue} {r : Record}
    (hStored : ∀ f ∈ q.filters, f.field.StoredIn row r)
    (hExact : ∀ f ∈ q.filters, f.MeetsExactly r) :
    clauseHolds? d (q.toSql d).whereText? row (q.toSql d).parameters =
      some (q.matchesRecord r) := by
  have hSource : ∀ f ∈ q.filters,
      ∃ source : FieldFilter, source.compile f.field.kind = .ok f.condition := by
    intro f hf
    obtain ⟨source, -, hSource⟩ := Specification.exists_filter_of_compile hCompile f hf
    exact ⟨source, hSource⟩
  rw [clauseHolds?_whereText, keeps_condition hSource hStored hExact]

end CompiledQuery

namespace Visits

def owners : RecordSchema Unit :=
  { name := "Owner", table := "owners", fields := [⟨"name", "name", .text⟩] }

def visits : RecordSchema Unit :=
  { name := "Visit"
    table := "visits"
    fields := [⟨"start", "start", .timestamp⟩]
    relations := [⟨"owner", "owner_id", "id", ()⟩] }

def catalog : Catalog Unit := fun _ => owners

def resolver : Resolver Unit := { maxDepth := 2, policy := .reject }

def afternoon : Specification :=
  { filters := [
      { field := "owner.name", mode := .notContains, dataType := .text
        value := some (.scalar (.text "50%")) },
      { field := "start", mode := .greaterOrEqual, dataType := .time
        value := some (.scalar (.text "12:30")) }] }

def ownerName : ResolvedField Unit :=
  { path := "owner.name"
    hops := ["owner"]
    leaf := "name"
    kind := .text
    column := ⟨"j_owner", "name"⟩
    joins := [⟨"owner", "j_owner", "owners", "visits", "owner_id", "id", owners⟩] }

def start : ResolvedField Unit :=
  { path := "start"
    hops := []
    leaf := "start"
    kind := .timestamp
    column := ⟨"visits", "start"⟩
    joins := [] }

def afternoonQuery : CompiledQuery Unit :=
  { schema := visits
    logic := .and
    filters := [⟨ownerName, .text, .identity, .text .contains "50%" true⟩,
      ⟨start, .time, .timeOfDay, .compare .ge (.micros 45000000000)⟩]
    sort := []
    joins := ownerName.joins }

def visit : Record := .mk [("start", .timestamp { seconds := 46800, nanos := 0 })] []

def row (c : ColumnRef) : StoredValue :=
  if c = ⟨"visits", "start"⟩ then .integer 46800000000 else .null

theorem clause_holds_of_visit :
    CompiledQuery.clauseHolds? .postgres (afternoonQuery.toSql .postgres).whereText? row
      (afternoonQuery.toSql .postgres).parameters = some true := by
  have hCompile : ∃ resolver', (afternoon.compile catalog visits).outcome resolver =
      (.ok afternoonQuery, resolver') := ⟨_, rfl⟩
  obtain ⟨resolver', hCompile⟩ := hCompile
  have hStored : ∀ f ∈ afternoonQuery.filters, f.field.StoredIn row visit := by
    simp only [ResolvedField.StoredIn]
    decide
  have hExact : ∀ f ∈ afternoonQuery.filters, f.MeetsExactly visit := by
    intro f hf a b ha
    rcases List.mem_cons.mp hf with rfl | hf
    · cases ha
    · obtain rfl := List.mem_singleton.mp hf
      cases ha
  exact CompiledQuery.clauseHolds?_of_compile hCompile .postgres hStored hExact

end Visits

end RecordFilter
