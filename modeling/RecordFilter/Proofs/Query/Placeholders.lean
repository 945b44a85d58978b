import RecordFilter.Proofs.Query.OrderText
import RecordFilter.Proofs.Query.WhereText
import RecordFilter.Proofs.Sql.Parameter
import RecordFilter.Proofs.Sql.Placeholders

/-!
# Placeholders and what is bound to them

Each operand of a filter is bound once and compared at one site. The sites stand in the order of the
filters, their placeholders are numbered in that order, and so are the bound values. The names in
between are those of the columns, one pair for each mention, and no other part of a query shows a
placeholder.
-/

namespace RecordFilter

namespace Sql

/-- Where something bound is compared: with which term, and by which operator, or as a pattern. -/
structure Site (α β : Type) where
  subject : Term α
  /-- None stands for the match of a pattern. -/
  operator : Option Comparison
  bound : β
deriving DecidableEq

variable {α β : Type}

/-- The sites with the positions after `k` in place of what is bound there. -/
def numberedSites (k : Nat) (sites : List (Site α β)) : List (Site α Nat) :=
  (sites.zipIdx (k + 1)).map fun (s, position) => ⟨s.subject, s.operator, position⟩

theorem numberedSites_append (k : Nat) (ss ts : List (Site α β)) :
    numberedSites k (ss ++ ts) = numberedSites k ss ++ numberedSites (k + ss.length) ts := by
  rw [numberedSites, List.zipIdx_append, List.map_append, Nat.add_right_comm]
  rfl

namespace Predicate

def sites : Predicate α → List (Site α Nat)
  | .compare op e (.parameter n) => [⟨e, some op, n⟩]
  | .like e (.parameter n) => [⟨e, none, n⟩]
  | .not p | .group p => p.sites
  | .and p q | .or p q => p.sites ++ q.sites
  | _ => []

theorem sites_ungrouped (p : Predicate α) : p.ungrouped.sites = p.sites := by
  induction p with
  | not p ih => rw [ungrouped, sites, sites, ih]
  | and p q ihp ihq => rw [ungrouped, sites, sites, ihp, ihq]
  | or p q ihp ihq => rw [ungrouped, sites, sites, ihp, ihq]
  | group p ih => exact ih
  | _ => rfl

end Predicate

def Term.columns : Term α → List α
  | .column c => [c]
  | .parameter _ | .integer _ | .emptyText => []
  | .fold e => e.columns
  | .add a b | .remainder a b => a.columns ++ b.columns

def Predicate.columns : Predicate α → List α
  | .isNull e | .isNotNull e => e.columns
  | .compare _ a b | .like a b => a.columns ++ b.columns
  | .not p | .group p => p.columns
  | .and p q | .or p q => p.columns ++ q.columns

def columnNames (c : ColumnRef) : List String := [c.table, c.column]

def Lexeme.identifier? : Lexeme → Option String
  | .identifier s => some s
  | _ => none

def identifiers (ts : List Lexeme) : List String := ts.filterMap Lexeme.identifier?

@[simp] theorem identifiers_nil : identifiers [] = [] := rfl

@[simp] theorem identifiers_append (ts us : List Lexeme) :
    identifiers (ts ++ us) = identifiers ts ++ identifiers us := List.filterMap_append

@[simp] theorem identifiers_cons_word (s : String) (ts : List Lexeme) :
    identifiers (.word s :: ts) = identifiers ts := rfl

@[simp] theorem identifiers_cons_mark (c : Char) (ts : List Lexeme) :
    identifiers (.mark c :: ts) = identifiers ts := rfl

@[simp] theorem identifiers_cons_operator (op : Comparison) (ts : List Lexeme) :
    identifiers (.operator op :: ts) = identifiers ts := rfl

@[simp] theorem identifiers_cons_literal (s : String) (ts : List Lexeme) :
    identifiers (.literal s :: ts) = identifiers ts := rfl

section
variable (d : Dialect) (position : Nat → Option Nat)

@[simp] theorem Term.identifiers_lexemes (e : Term ColumnRef) :
    identifiers (e.lexemes d position) = e.columns.flatMap columnNames := by
  induction e with
  | fold e ih => cases d <;> simp [lexemes, foldLexemes, foldArguments, columns, ih]
  | add a b iha ihb => simp [lexemes, columns, iha, ihb]
  | remainder a b iha ihb => simp [lexemes, columns, iha, ihb]
  | _ => rfl

theorem Predicate.identifiers_lexemes (p : Predicate ColumnRef) :
    identifiers (p.lexemes d position) = p.columns.flatMap columnNames := by
  induction p with
  | isNull e => simp [lexemes, columns]
  | isNotNull e => simp [lexemes, columns]
  | compare op a b => simp [lexemes, columns]
  | like e pattern => simp [lexemes, columns]
  | not p ih => simp [lexemes, columns, ih]
  | and p q ihp ihq => simp [lexemes, columns, ihp, ihq]
  | or p q ihp ihq => simp [lexemes, columns, ihp, ihq]
  | group p ih => simp [lexemes, columns, ih]

end

end Sql

open Sql

theorem Projection.columns_term {α : Type} (p : Projection) (column : α) :
    (p.term column).columns = [column] := by
  cases p <;> rfl

namespace Condition

variable {α : Type}

/-- The sites of the operands of a condition on a term, from the lower end of a range on. -/
def sites (e : Term α) : Condition → List (Site α Parameter)
  | empty _ _ => []
  | text test needle _ =>
    [⟨.fold e, if test = .equals then some .eq else none, .text (test.pattern needle)⟩]
  | compare op operand => [⟨e, some op, .ofOperand operand⟩]
  | within lower upper upperInclusive _ =>
    [⟨e, some .ge, .ofOperand lower⟩,
      ⟨e, some (if upperInclusive then .le else .lt), .ofOperand upper⟩]

def mentionsInTest : Condition → Nat
  | empty _ blankText => if blankText then 2 else 1
  | text .. | compare .. => 1
  | within .. => 2

/-- A condition that holds of null mentions its term once more, to say so. -/
def mentions (c : Condition) : Nat :=
  if !c.isEmptiness && c.matchesNull then c.mentionsInTest + 1 else c.mentionsInTest

theorem sites_negateIf (negated : Bool) (p : Predicate α) :
    (negateIf negated p).sites = p.sites := by
  cases negated <;> rfl

theorem columns_negateIf (negated : Bool) (p : Predicate α) :
    (negateIf negated p).columns = p.columns := by
  cases negated <;> rfl

/-- A condition binds its operands behind the parameters so far and compares each at its site. -/
theorem sites_predicate (e : Term α) (ps : Parameters) (c : Condition) :
    (c.predicate e ps).1.sites = numberedSites ps.size (c.sites e) ∧
      (c.predicate e ps).2.values = ps.values ++ (c.sites e).map (·.bound) := by
  cases c with
  | empty negated blankText =>
    cases negated <;> cases blankText <;> exact ⟨rfl, (List.append_nil _).symm⟩
  | text test needle negated =>
    refine ⟨?_, rfl⟩
    simp only [predicate, sites_negateIf]
    cases test <;> rfl
  | compare op operand => exact ⟨rfl, rfl⟩
  | within lower upper upperInclusive negated =>
    refine ⟨?_, List.append_assoc ..⟩
    have hSecond : (ps.push (.ofOperand lower)).1.size = ps.size + 1 := Parameters.size_push ..
    simp only [predicate, sites_negateIf, Parameters.bind, Parameters.push_snd, hSecond]
    rfl

theorem sites_predicateOrNull (e : Term α) (ps : Parameters) (c : Condition) :
    (c.predicateOrNull e ps).1.sites = numberedSites ps.size (c.sites e) ∧
      (c.predicateOrNull e ps).2.values = ps.values ++ (c.sites e).map (·.bound) := by
  have h := c.sites_predicate e ps
  simp only [predicateOrNull]
  split
  · exact h
  · exact h

section
variable {e : Term α} {column : α} (he : e.columns = [column])
include he

theorem columns_predicate (ps : Parameters) (c : Condition) :
    (c.predicate e ps).1.columns = List.replicate c.mentionsInTest column := by
  cases c with
  | empty negated blankText =>
    cases negated <;> cases blankText <;> simp [predicate, Predicate.columns, Term.columns, he,
      mentionsInTest, List.replicate]
  | text test needle negated =>
    simp only [predicate, columns_negateIf]
    cases test <;> simp [Predicate.columns, Term.columns, he, Parameters.bind, mentionsInTest]
  | compare op operand =>
    simp [predicate, Predicate.columns, Term.columns, he, Parameters.bind, mentionsInTest]
  | within lower upper upperInclusive negated =>
    simp only [predicate, columns_negateIf]
    simp [Predicate.columns, Term.columns, he, Parameters.bind, mentionsInTest, List.replicate]

theorem columns_predicateOrNull (ps : Parameters) (c : Condition) :
    (c.predicateOrNull e ps).1.columns = List.replicate c.mentions column := by
  have hTest := c.columns_predicate he ps
  simp only [predicateOrNull, mentions]
  split
  · rw [Predicate.columns, Predicate.columns, he, hTest, List.replicate_succ]
    rfl
  · exact hTest

end

end Condition

section
variable {κ : Type}

namespace CompiledFilter

def sites (f : CompiledFilter κ) : List (Site ColumnRef Parameter) :=
  f.condition.condition.sites (f.condition.projection.term f.field.column)

def names (f : CompiledFilter κ) : List String :=
  (List.replicate f.condition.condition.mentions f.field.column).flatMap columnNames

end CompiledFilter

namespace CompiledQuery

theorem sites_filterPredicates (ps : Parameters) (fs : List (CompiledFilter κ)) :
    (filterPredicates ps fs).1.flatMap Predicate.sites =
        numberedSites ps.size (fs.flatMap CompiledFilter.sites) ∧
      (filterPredicates ps fs).2.values =
        ps.values ++ (fs.flatMap CompiledFilter.sites).map (·.bound) := by
  induction fs generalizing ps with
  | nil => exact ⟨rfl, (List.append_nil _).symm⟩
  | cons f fs ih =>
    obtain ⟨hSites, hValues⟩ := f.condition.condition.sites_predicateOrNull
      (f.condition.projection.term f.field.column) ps
    obtain ⟨hRest, hLast⟩ := ih (f.condition.condition.predicateOrNull
      (f.condition.projection.term f.field.column) ps).2
    have hSize : (f.condition.condition.predicateOrNull
        (f.condition.projection.term f.field.column) ps).2.size = ps.size + f.sites.length := by
      rw [Parameters.size, hValues, List.length_append, List.length_map]
      rfl
    rw [hSize] at hRest
    rw [hValues] at hLast
    rw [List.flatMap_cons, numberedSites_append, List.map_append, ← List.append_assoc]
    refine ⟨?_, hLast⟩
    rw [filterPredicates, List.flatMap_cons, hRest]
    exact congrArg (· ++ _) hSites

theorem columns_filterPredicates (ps : Parameters) (fs : List (CompiledFilter κ)) :
    ((filterPredicates ps fs).1.flatMap Predicate.columns).flatMap columnNames =
      fs.flatMap CompiledFilter.names := by
  induction fs generalizing ps with
  | nil => rfl
  | cons f fs ih =>
    have hFirst := f.condition.condition.columns_predicateOrNull
      (f.condition.projection.columns_term f.field.column) ps
    rw [filterPredicates, List.flatMap_cons, List.flatMap_append, ih, List.flatMap_cons]
    exact congrArg (·.flatMap columnNames ++ _) hFirst

theorem positions_toSql (q : CompiledQuery κ) (d : Dialect) :
    (q.toSql d).positions = List.range' 1 (q.toSql d).parameters.size := by
  have hJoined : (q.toSql d).positions =
      (filterPredicates {} q.filters).1.flatMap Predicate.positions :=
    flatMap_joinPredicates (fun _ _ => rfl) fun _ _ => rfl
  have hSize : (q.toSql d).parameters.size = (q.toSql d).positions.length := by
    rw [hJoined]
    exact (size_filterPredicates {} q.filters).trans (Nat.zero_add _)
  rw [hSize, hJoined]
  exact countsFrom_filterPredicates {} q.filters

theorem eq_flatMap_of_condition {q : CompiledQuery κ} {d : Dialect} {p : Predicate ColumnRef}
    (h : (q.toSql d).condition = some p) {β : Type} {f : Predicate ColumnRef → List β}
    (hAnd : ∀ p q, f (.and p q) = f p ++ f q) (hOr : ∀ p q, f (.or p q) = f p ++ f q) :
    f p = (filterPredicates {} q.filters).1.flatMap f := by
  have hAll : ((q.toSql d).condition.map f).getD [] = _ := flatMap_joinPredicates hAnd hOr
  rwa [h] at hAll

/-- In the WHERE clause the names are those of the columns, the placeholders are numbered from left
to right, and each stands where an operand is compared, in the order of the filters; the values are
bound in that order. The other clauses show no placeholder, so the texts that count rows and that
fetch a page show those of the WHERE clause. -/
theorem placeholders_toSql (q : CompiledQuery κ) (d : Dialect) :
    let sql := q.toSql d
    let sites := q.filters.flatMap CompiledFilter.sites
    let shown := (List.range' 1 sql.parameters.size).map d.placeholder
    sql.parameters.values = sites.map (·.bound) ∧
      (∀ clause ∈ sql.whereText?,
        (lexemes? clause.toList).map identifiers = some (q.filters.flatMap CompiledFilter.names) ∧
        placeholders? clause = some shown ∧
        (readCondition? d clause).map Predicate.sites = some (numberedSites 0 sites)) ∧
      placeholders? sql.tableText = some [] ∧
      (∀ text ∈ sql.joinTexts, placeholders? text = some []) ∧
      placeholders? sql.selectText = some [] ∧
      placeholders? sql.orderText = some [] ∧
      placeholders? sql.countText = some shown ∧
      ∀ page, placeholders? (sql.pageText page) = some shown := by
  intro sql sites shown
  have hColumns : ∀ t ∈ sql.order, ∃ c, t.term = .column c := by
    intro t ht
    obtain ⟨k, -, ht⟩ := List.mem_flatMap.mp ht
    exact SortKey.exists_column_of_mem_terms ht
  have hShown : sql.positions.map d.placeholder = shown :=
    congrArg (List.map d.placeholder) (q.positions_toSql d)
  obtain ⟨hSites, hValues⟩ := sites_filterPredicates {} q.filters
  have hPage (page : Page) : placeholders? (sql.pageText page) = some shown :=
    hShown ▸ Query.placeholders?_pageText hColumns page
  refine ⟨hValues, ?_, sql.hides_tableText.placeholders?_eq,
    fun text ht => (sql.hides_joinTexts text ht).placeholders?_eq,
    sql.hides_selectText.placeholders?_eq, (Query.hides_orderText hColumns).placeholders?_eq,
    hShown ▸ sql.placeholders?_countText, hPage⟩
  intro clause hClause
  obtain ⟨p, hCondition, hText⟩ := Option.map_eq_some_iff.mp hClause
  obtain rfl : p.text d columnText = clause := hText
  have hNames : p.columns = _ := eq_flatMap_of_condition hCondition (fun _ _ => rfl) fun _ _ => rfl
  have hCompared : p.sites = _ := eq_flatMap_of_condition hCondition (fun _ _ => rfl) fun _ _ => rfl
  refine ⟨?_, ?_, ?_⟩
  · rw [(p.spells_text d).lexemes?_eq, Option.map_some, Predicate.identifiers_lexemes,
      hNames, columns_filterPredicates]
  · rw [(p.shows_text d).placeholders?_eq, ← hShown, Query.positions, hCondition]
    rfl
  · rw [readCondition?_condition hCondition, Option.map_some, Predicate.sites_ungrouped,
      hCompared, hSites]
    rfl

end CompiledQuery

end

end RecordFilter
