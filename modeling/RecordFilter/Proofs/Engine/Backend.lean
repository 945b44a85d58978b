import RecordFilter.Engine
import RecordFilter.Proofs.Memory.Evaluate
import RecordFilter.Proofs.Query.PrimaryKey
import RecordFilter.Proofs.Query.StatementText
import RecordFilter.Proofs.Sql.Store

/-!
# The choice of a backend

One backend fetches all rows and works in memory, the other has the database count, sort and page.
What a database answers is what it reads in the texts it is sent. The primary key orders all rows in
one way only, so both backends find the same page, and nobody can tell from an answer which of them
was chosen.
-/

namespace RecordFilter

open MemoryEvaluator Resolving

variable {κ τ ρ : Type}

namespace CompiledQuery

section
variable (q : CompiledQuery κ) (db : Sql.Store τ ρ)

def baseRowsIn : List (Sql.JoinedRow τ) :=
  ((db.table? q.schema.table).getD []).map (Sql.Store.baseRow q.schema.table)

def joinedFrom (rows : List (Sql.JoinedRow τ)) : List (Sql.JoinedRow τ) :=
  db.joinRows rows (q.toSql .sqlite).joins

/-- The rows of the base table with what is joined to them, whether they match or not. -/
def rowsIn : List (Sql.JoinedRow τ) := q.joinedFrom db (q.baseRowsIn db)

def recordOf (row : Sql.JoinedRow τ) : ρ := db.record q.schema.table (q.toSql .sqlite).items row

def recordsIn : List ρ := (q.rowsIn db).map (q.recordOf db)

/-- The records of all rows that match, in order. -/
def sortedIn (view : ρ → Record) : List ρ :=
  (matching q view (q.recordsIn db)).mergeSort (mayPrecede q view)

/-- No text that is sent for the page is answered by an error. -/
structure NeverFails (c : Sql.Connection ρ) (p : Page) : Prop where
  count : ∃ n, c.count (q.toSql .sqlite).countText (q.toSql .sqlite).parameters = .ok n
  page : ∃ answer, c.rows ((q.toSql .sqlite).pageText p) (q.toSql .sqlite).parameters = .ok answer
  all : ∃ answer, c.fetchAll (q.toUnfilteredSql .sqlite).rowsText = .ok answer

/-- What is taken for granted of the database: joins find at most one row each, the primary key
tells the rows of the base table apart, the condition keeps the rows whose records match, and rows
are sorted as their records are, by an order that can sort them. Clauses mean what is read in
them. -/
structure Grants (view : ρ → Record) (key : ResolvedField κ) : Prop where
  joinsOnce : db.JoinsOnce (q.baseRowsIn db) (q.toSql .sqlite).joins
  keysApart : (q.baseRowsIn db).Pairwise fun a b =>
    ∀ x ∈ q.joinedFrom db [a], ∀ y ∈ q.joinedFrom db [b],
      key.order (view (q.recordOf db x)) (view (q.recordOf db y)) ≠ .eq
  keeps : ∀ text p, (q.toSql .sqlite).whereText? = some text →
    Sql.readCondition? .sqlite text = some p → ∀ row ∈ q.rowsIn db,
      db.keeps p (q.toSql .sqlite).parameters row = q.matchesRecord (view (q.recordOf db row))
  sorts : ∀ terms, Sql.readOrder? .sqlite (q.toSql .sqlite).orderText = some terms →
    ∀ a ∈ q.rowsIn db, ∀ b ∈ q.rowsIn db, db.order terms (q.toSql .sqlite).parameters a b =
      q.order (view (q.recordOf db a)) (view (q.recordOf db b))
  isPreorder : q.IsPreorderOn view (q.recordsIn db)

end

section
variable {q : CompiledQuery κ} {db : Sql.Store τ ρ} {c : Sql.Connection ρ} {view : ρ → Record}
  {key : ResolvedField κ}

theorem eq_rowsIn_of_joined? {s : Sql.RowSource} {rows : List (Sql.JoinedRow τ)}
    (hTable : s.table = q.schema.table) (hJoins : s.joins = (q.toSql .sqlite).joins)
    (h : db.joined? s = some rows) : rows = q.rowsIn db := by
  rw [Sql.Store.joined?_eq_some h, hTable, hJoins]
  rfl

/-- A database that has all tables, with few enough rows to count, never fails. -/
theorem neverFails_connection {rows : List (Sql.JoinedRow τ)} {p : Page}
    (hJoined : db.joined? (q.toSql .sqlite).source = some rows) (hShort : rows.length < 2 ^ 63) :
    q.NeverFails db.connection p := by
  have hKept (s : Sql.RowSource) (ps : Parameters) (hs : db.joined? s = some rows) :
      db.kept? s ps = some (rows.filter (db.keepsRow s.condition ps)) := congrArg _ hs
  constructor
  · have hFew (pass : Sql.JoinedRow τ → Bool) : (rows.filter pass).length < 2 ^ 63 :=
      Nat.lt_of_le_of_lt (List.length_filter_le pass rows) hShort
    simp only [Sql.Store.connection, readStatement?_countText, hKept _ _ hJoined, if_pos (hFew _)]
    exact ⟨_, rfl⟩
  · simp only [Sql.Store.connection, readStatement?_pageText, hKept _ _ hJoined]
    exact ⟨_, rfl⟩
  · simp only [Sql.Connection.fetchAll, Sql.Store.connection, readStatement?_unfilteredText,
      hKept ⟨q.schema.table, (q.toSql .sqlite).joins, none⟩ _ hJoined]
    exact ⟨_, rfl⟩

theorem perm_of_fetchAll (hAnswers : c.Answers db) {answer : List ρ}
    (h : c.fetchAll (q.toUnfilteredSql .sqlite).rowsText = .ok answer) :
    answer.Perm (q.recordsIn db) := by
  obtain ⟨rows, sorted, hKept, hPerm, -, rfl⟩ :=
    hAnswers.rows (q.readStatement?_unfilteredText .sqlite) h
  obtain ⟨joined, hJoined, rfl⟩ := Option.map_eq_some_iff.mp hKept
  obtain rfl := eq_rowsIn_of_joined? rfl rfl hJoined
  have hAll : (q.rowsIn db).filter (db.keepsRow none {}) = q.rowsIn db :=
    List.filter_eq_self.mpr fun _ _ => rfl
  have hSorted : sorted.Perm (q.rowsIn db) := hAll ▸ hPerm
  exact hSorted.map _

section
variable (hGrants : q.Grants db view key)
include hGrants

theorem Grants.keepsRow_eq {row : Sql.JoinedRow τ} (hRow : row ∈ q.rowsIn db) :
    db.keepsRow (q.toSql .sqlite).source.condition (q.toSql .sqlite).parameters row =
      q.matchesRecord (view (q.recordOf db row)) := by
  rw [Sql.Query.source]
  cases hCondition : (q.toSql .sqlite).condition with
  | none =>
    have hFilters := filters_eq_nil_of_condition_eq_none hCondition
    exact (matchesRecord_of_filters_eq_nil hFilters _).symm
  | some p =>
    have hText : (q.toSql .sqlite).whereText? = some (p.text .sqlite Sql.columnText) :=
      congrArg (Option.map _) hCondition
    exact hGrants.keeps _ _ hText (readCondition?_condition hCondition) row hRow

theorem Grants.map_recordOf_eq {rows : List (Sql.JoinedRow τ)}
    (h : db.kept? (q.toSql .sqlite).source (q.toSql .sqlite).parameters = some rows) :
    (∀ row ∈ rows, row ∈ q.rowsIn db) ∧
      rows.map (q.recordOf db) = matching q view (q.recordsIn db) := by
  obtain ⟨joined, hJoined, rfl⟩ := Option.map_eq_some_iff.mp h
  obtain rfl := eq_rowsIn_of_joined? rfl rfl hJoined
  refine ⟨fun _ => List.mem_of_mem_filter, ?_⟩
  rw [matching, recordsIn, List.filter_map]
  exact congrArg _ (List.filter_congr fun _ => hGrants.keepsRow_eq)

theorem Grants.mayPrecede_eq {a b : Sql.JoinedRow τ} (ha : a ∈ q.rowsIn db) (hb : b ∈ q.rowsIn db) :
    db.mayPrecede ((q.toSql .sqlite).order.map (Sql.OrderTerm.asRead .sqlite))
        (q.toSql .sqlite).parameters a b =
      mayPrecede q view (q.recordOf db a) (q.recordOf db b) := by
  rw [Sql.Store.mayPrecede, hGrants.sorts _ (q.readOrder?_text .sqlite) a ha b hb]
  rfl

theorem Grants.eq_sortedIn (hTied : ∀ a b, q.order a b = .eq → key.order a b = .eq) {xs : List ρ}
    (hPerm : xs.Perm (matching q view (q.recordsIn db)))
    (hSorted : xs.Pairwise fun a b => mayPrecede q view a b = true) : xs = q.sortedIn db view := by
  have hOrder := hGrants.isPreorder
  have hUntied : (q.recordsIn db).Pairwise fun a b => q.order (view a) (view b) ≠ .eq := by
    rw [recordsIn, List.pairwise_map]
    refine (Sql.Store.pairwise_joinRows hGrants.joinsOnce hGrants.keysApart).imp ?_
    intro a b hApart hOrder
    exact hApart (hTied _ _ hOrder)
  exact hOrder.sorted_unique hUntied hPerm (List.mergeSort_perm ..) hSorted
    (pairwise_mergeSort_of_preorderOn (hOrder.preorderOn.mono fun _ => List.mem_of_mem_filter))

section
variable (hAnswers : c.Answers db)
include hAnswers

theorem Grants.length_of_count {n : Int64}
    (h : c.count (q.toSql .sqlite).countText (q.toSql .sqlite).parameters = .ok n) :
    n.toInt = (matching q view (q.recordsIn db)).length := by
  obtain ⟨rows, hKept, hCount⟩ :=
    hAnswers.count (q.readStatement?_countText .sqlite) h
  rw [hCount, ← (hGrants.map_recordOf_eq hKept).2, List.length_map]

theorem Grants.exists_sorted_of_page {p : Page} {answer : List ρ}
    (h : c.rows ((q.toSql .sqlite).pageText p) (q.toSql .sqlite).parameters = .ok answer) :
    ∃ sorted : List ρ, sorted.Perm (matching q view (q.recordsIn db)) ∧
      sorted.Pairwise (fun a b => mayPrecede q view a b = true) ∧
      answer = (sorted.drop (Sql.Query.rowNumber p.offset)).take (Sql.Query.rowNumber p.size) := by
  obtain ⟨rows, sorted, hKept, hPerm, hSort, rfl⟩ :=
    hAnswers.rows (q.readStatement?_pageText .sqlite p) h
  obtain ⟨hMem, hRecords⟩ := hGrants.map_recordOf_eq hKept
  have hPreorder : PreorderOn (mayPrecede q view) (rows.map (q.recordOf db)) := by
    rw [hRecords]
    exact hGrants.isPreorder.preorderOn.mono fun _ => List.mem_of_mem_filter
  have hSorted := hSort (hPreorder.of_map fun a ha b hb =>
    hGrants.mayPrecede_eq (hMem a ha) (hMem b hb))
  refine ⟨sorted.map (q.recordOf db), hRecords ▸ hPerm.map _, ?_, ?_⟩
  · rw [List.pairwise_map]
    refine hSorted.imp_of_mem ?_
    intro a b ha hb hab
    rwa [hGrants.mayPrecede_eq (hMem a (hPerm.subset ha)) (hMem b (hPerm.subset hb))] at hab
  · rw [← List.map_drop, ← List.map_take]
    rfl

section
variable (hTied : ∀ a b, q.order a b = .eq → key.order a b = .eq)
include hTied

/-- Fetched in whatever order, all rows are evaluated to the sorted records that match. -/
theorem Grants.evaluate_eq_sortedIn (e : MemoryEvaluator) {fetched : List ρ}
    (h : c.fetchAll (q.toUnfilteredSql .sqlite).rowsText = .ok fetched) :
    e.evaluate q view fetched = q.sortedIn db view := by
  have hPerm := perm_of_fetchAll hAnswers h
  refine hGrants.eq_sortedIn hTied ((e.evaluate_perm q view fetched).trans (hPerm.filter _)) ?_
  exact e.pairwise_evaluate q view
    (hGrants.isPreorder.preorderOn.mono fun _ ha => hPerm.subset ha)

/-- The count and the page, if it is asked for, are those of the sorted records that match. -/
theorem Grants.fetchPage_eq {p : Page} (hFails : q.NeverFails c p) :
    c.fetchPage (q.toSql .sqlite) p = .ok (.ofSorted (q.sortedIn db view) p) := by
  obtain ⟨n, hCount⟩ := hFails.count
  obtain ⟨answer, hPage⟩ := hFails.page
  have hLength := hGrants.length_of_count hAnswers hCount
  have hBound := n.toInt_lt
  obtain ⟨sorted, hPerm, hSorted, rfl⟩ := hGrants.exists_sorted_of_page hAnswers hPage
  rw [← hPerm.length_eq] at hLength
  have hShort : sorted.length < 2 ^ 63 := by omega
  have hTotal : n.toInt.toNat = sorted.length := by omega
  rw [Page.take_drop_rowNumber hShort] at hPage
  rw [← hGrants.eq_sortedIn hTied hPerm hSorted, PageResult.ofSorted]
  simp only [Sql.Connection.fetchPage, hCount]
  change (if n.toInt.toNat ≤ p.offset then _ else _) = _
  rw [hTotal]
  split
  · rename_i hPast
    rw [Page.slice_of_length_le_offset hPast]
    rfl
  · rw [hPage]
    rfl

end

end

end

end

end CompiledQuery

namespace Engine

variable (e : Engine) (catalog : Catalog κ) (schema : RecordSchema κ) (view : ρ → Record)

def findOn (backend : Backend) (c : Sql.Connection ρ) (spec : Specification)
    (request : PageRequest) : Resolving κ (PageResult ρ) := do
  let q ← spec.compile catalog schema
  e.runOn backend view c q (e.page request)

/-- The page of the sorted records that match, or else the error of the compilation. -/
def answer (db : Sql.Store τ ρ) (spec : Specification) (request : PageRequest) (r : Resolver κ) :
    Except FilterError (PageResult ρ) × Resolver κ :=
  match (spec.compile catalog schema).outcome r with
  | (.ok q, r') => (.ok (.ofSorted (q.sortedIn db view) (e.page request)), r')
  | (.error error, r') => (.error error, r')

variable {catalog schema view}

theorem runOn_eq {c : Sql.Connection ρ} {db : Sql.Store τ ρ} {q : CompiledQuery κ}
    {key : ResolvedField κ} {p : Page} (hAnswers : c.Answers db) (hFails : q.NeverFails c p)
    (hGrants : q.Grants db view key) (hTied : ∀ a b, q.order a b = .eq → key.order a b = .eq)
    (backend : Backend) : e.runOn backend view c q p = .ok (.ofSorted (q.sortedIn db view) p) := by
  cases backend with
  | memory =>
    obtain ⟨fetched, hFetched⟩ := hFails.all
    simp only [runOn, hFetched]
    change Except.ok (e.evaluator.paginateOwned q view fetched p) = _
    rw [paginateOwned_eq_paginate, paginate, hGrants.evaluate_eq_sortedIn hAnswers hTied _ hFetched]
  | relational => exact hGrants.fetchPage_eq hAnswers hTied hFails

/-- Whatever the threshold and the estimate, the answer is that of either backend: the page of the
sorted records that match, or the error of the compilation. -/
theorem outcome_find_eq_answer {c : Sql.Connection ρ} {db : Sql.Store τ ρ} {spec : Specification}
    {r : Resolver κ} {key : ResolvedField κ} (request : PageRequest) (hAnswers : c.Answers db)
    (hKey : r.FindsPrimaryKey catalog schema key)
    (hQuery : ∀ q r', (spec.compile catalog schema).outcome r = (.ok q, r') →
      q.NeverFails c (e.page request) ∧ q.Grants db view key) :
    (∀ backend, (e.findOn catalog schema view backend c spec request).outcome r =
      e.answer catalog schema view db spec request r) ∧
    ∀ estimator, (e.findHybrid catalog schema view c estimator spec request).outcome r =
      e.answer catalog schema view db spec request r := by
  have hOn (backend : Backend) : (e.findOn catalog schema view backend c spec request).outcome r =
      e.answer catalog schema view db spec request r := by
    rw [findOn, answer, outcome_bind]
    cases hCompiled : (spec.compile catalog schema).outcome r with
    | mk result r' =>
    cases result with
    | error error => rfl
    | ok q =>
      obtain ⟨hFails, hGrants⟩ := hQuery q r' hCompiled
      have hTied : ∀ a b, q.order a b = .eq → key.order a b = .eq := fun _ _ =>
        Specification.key_order_eq_of_compile hKey hCompiled
      exact (outcome_liftExcept _ r').trans
        (congrArg (·, r') (e.runOn_eq hAnswers hFails hGrants hTied backend))
  constructor
  · exact hOn
  · intro estimator
    exact hOn (e.selectBackend estimator schema)

end Engine

namespace Ledger

def branches : RecordSchema Unit :=
  { name := "Branch", table := "branches", primaryKey := some "id"
    fields := [⟨"id", "id", .integer⟩, ⟨"name", "name", .text⟩] }

def catalog : Catalog Unit := fun _ => branches

def accounts : RecordSchema Unit :=
  { name := "Account", table := "accounts", primaryKey := some "id"
    fields := [⟨"id", "id", .integer⟩]
    relations := [⟨"branch", "branch_id", "id", ()⟩] }

/-- Two accounts of one branch, and an account without a branch between them. -/
def database : Database :=
  { tables :=
      [⟨"accounts", [[("id", .integer 2), ("branch_id", .integer 7)], [("id", .integer 3)],
        [("id", .integer 1), ("branch_id", .integer 7)]]⟩,
        ⟨"branches", [[("id", .integer 7), ("name", .text "north")]]⟩] }

def store : Sql.Store Database.StoredRow Record := database.store catalog accounts

def account (id : Int64) : Record :=
  .mk [("id", .number (.int id))]
    [("branch", .mk [("id", .number (.int 7)), ("name", .text "north")] [])]

def assigned : Specification :=
  { filters := [{ field := "branch.name", mode := .isNotEmpty, dataType := .text, value := none }]
    sort := [⟨"branch.name", .desc⟩] }

def branchJoin : JoinSpec Unit :=
  ⟨"branch", "j_branch", "branches", "accounts", "branch_id", "id", branches⟩

def idField : ResolvedField Unit := ⟨"id", [], "id", .integer, ⟨"accounts", "id"⟩, []⟩

def nameField : ResolvedField Unit :=
  ⟨"branch.name", ["branch"], "name", .text, ⟨"j_branch", "name"⟩, [branchJoin]⟩

def assignedQuery : CompiledQuery Unit :=
  { schema := accounts
    logic := .and
    filters := [⟨nameField, .text, .identity, .empty true true⟩]
    sort := [⟨nameField, .text, .desc⟩, ⟨idField, .number, .asc⟩]
    joins := [branchJoin] }

def resolver : Resolver Unit := Settings.resolver {} Unit

example : ((assigned.compile catalog accounts).outcome resolver).1 = .ok assignedQuery := rfl

theorem grants : assignedQuery.Grants store id idField where
  joinsOnce := ⟨by decide, trivial⟩
  keysApart := by decide
  keeps text p hText hRead := by
    cases hText
    obtain rfl := Option.some.inj
      ((assignedQuery.readCondition?_condition (d := .sqlite) rfl).symm.trans hRead)
    decide
  sorts terms hRead := by
    obtain rfl := Option.some.inj ((assignedQuery.readOrder?_text .sqlite).symm.trans hRead)
    decide
  isPreorder := { swap := by decide, trans := by decide }

theorem mergeSort_pair {α : Type} (le : α → α → Bool) (a b : α) :
    [a, b].mergeSort le = if le a b then [a, b] else [b, a] := by
  simp [List.mergeSort, List.merge]

theorem answer_eq : (({} : Engine).answer catalog accounts id store assigned ⟨-4, 1⟩ resolver).1 =
    .ok ⟨[account 1], 2, 2, 0, 1⟩ := by
  change Except.ok (PageResult.ofSorted ([account 2, account 1].mergeSort
    (mayPrecede assignedQuery id)) _) = _
  rw [mergeSort_pair]
  rfl

/-- With an estimate the page comes from memory, without one from the database. -/
theorem page_of_either_backend :
    (({} : Engine).findHybrid catalog accounts id store.connection (.exact database) assigned
      ⟨-4, 1⟩ |>.outcome resolver).1 = .ok ⟨[account 1], 2, 2, 0, 1⟩ ∧
    (({} : Engine).findHybrid catalog accounts id store.connection (.recorded database) assigned
      ⟨-4, 1⟩ |>.outcome resolver).1 = .ok ⟨[account 1], 2, 2, 0, 1⟩ := by
  have hKey : resolver.FindsPrimaryKey catalog accounts idField := ⟨_, rfl, .fresh rfl, rfl⟩
  have hQuery : ∀ q r', (assigned.compile catalog accounts).outcome resolver = (.ok q, r') →
      q.NeverFails store.connection (({} : Engine).page ⟨-4, 1⟩) ∧ q.Grants store id idField := by
    intro q r' hCompiled
    cases hCompiled
    exact ⟨CompiledQuery.neverFails_connection rfl (by decide), grants⟩
  have hAnswer := (Engine.outcome_find_eq_answer {} ⟨-4, 1⟩ store.connection_answers hKey hQuery).2
  exact ⟨(congrArg Prod.fst (hAnswer _)).trans answer_eq,
    (congrArg Prod.fst (hAnswer _)).trans answer_eq⟩

end Ledger

end RecordFilter
