import RecordFilter.Proofs.Sql.Clauses
import RecordFilter.Proofs.Sql.SelectList

/-!
# Reading back statements

The texts of a query are read as the statements they stand for: the count of its rows, all of its
rows in order, and a page of them. The clauses are found because none of them holds a word that
another begins with.
-/

namespace RecordFilter.Sql

/-- A clause begins with the lexeme. -/
def Lexeme.opens : Lexeme → Bool
  | .word w => w = "FROM" || w = "WHERE" || w = "ORDER" || w = "LIMIT"
  | _ => false

/-- No clause begins within the lexemes. -/
def staysWithin (ts : List Lexeme) : Bool := ts.all fun t => !t.opens

theorem staysWithin_append {ts us : List Lexeme} (ht : staysWithin ts = true)
    (hu : staysWithin us = true) : staysWithin (ts ++ us) = true := by
  rw [staysWithin, List.all_append]
  exact Bool.and_eq_true_iff.mpr ⟨ht, hu⟩

theorem staysWithin_flatMap {α : Type} {f : α → List Lexeme} {xs : List α}
    (h : ∀ x ∈ xs, staysWithin (f x) = true) : staysWithin (xs.flatMap f) = true := by
  rw [staysWithin, List.all_flatMap, List.all_eq_true]
  exact h

theorem notMem_of_staysWithin {ts : List Lexeme} (h : staysWithin ts = true) {w : String}
    (hw : (Lexeme.word w).opens = true) : .word w ∉ ts := by
  intro hMem
  have hNot := List.all_eq_true.mp h _ hMem
  rw [hw] at hNot
  cases hNot

/-- A clause with the word it begins with, if it is there. -/
def clauseLexemes (w : String) : Option (List Lexeme) → List Lexeme
  | none => []
  | some ts => .word w :: ts

theorem cutAt_append {w : String} {before : List Lexeme} (h : .word w ∉ before)
    (after : Option (List Lexeme)) :
    cutAt w (before ++ clauseLexemes w after) = (before, after) := by
  induction before with
  | nil =>
    cases after with
    | none => rfl
    | some ts => exact if_pos rfl
  | cons t before ih =>
    obtain ⟨ht, hBefore⟩ := List.ne_and_not_mem_of_not_mem_cons h
    rw [List.cons_append, cutAt, if_neg (Ne.symm ht), ih hBefore]

namespace Clauses

def lexemes (c : Clauses) : List Lexeme :=
  c.selected ++ clauseLexemes "FROM" c.source ++ clauseLexemes "WHERE" c.condition ++
    clauseLexemes "ORDER" c.order ++ clauseLexemes "LIMIT" c.window

/-- The clauses of a statement before its window can be told apart. -/
structure Apart (c : Clauses) : Prop where
  selected : staysWithin c.selected = true
  source : staysWithin (c.source.getD []) = true
  condition : staysWithin (c.condition.getD []) = true
  order : staysWithin (c.order.getD []) = true

end Clauses

theorem notMem_append_clauseLexemes {v w : String} {ts : List Lexeme}
    {clause : Option (List Lexeme)} (hv : (Lexeme.word v).opens = true) (hNe : v ≠ w)
    (ht : .word v ∉ ts) (hClause : staysWithin (clause.getD []) = true) :
    .word v ∉ ts ++ clauseLexemes w clause := by
  rw [List.mem_append, not_or]
  refine ⟨ht, ?_⟩
  cases clause with
  | none => exact List.not_mem_nil
  | some us =>
    intro hMem
    rcases List.mem_cons.mp hMem with hEq | hMem
    · exact hNe (Lexeme.word.inj hEq)
    · exact notMem_of_staysWithin hClause hv hMem

theorem cutClauses_lexemes {c : Clauses} (h : c.Apart) : cutClauses c.lexemes = c := by
  have hFront {v : String} (hv : (Lexeme.word v).opens = true) : .word v ∉ c.selected :=
    notMem_of_staysWithin h.selected hv
  have hWhere {v : String} (hv : (Lexeme.word v).opens = true) (hFrom : v ≠ "FROM") :
      .word v ∉ c.selected ++ clauseLexemes "FROM" c.source :=
    notMem_append_clauseLexemes hv hFrom (hFront hv) h.source
  have hOrder {v : String} (hv : (Lexeme.word v).opens = true) (hFrom : v ≠ "FROM")
      (hNe : v ≠ "WHERE") : .word v ∉ c.selected ++ clauseLexemes "FROM" c.source ++
        clauseLexemes "WHERE" c.condition :=
    notMem_append_clauseLexemes hv hNe (hWhere hv hFrom) h.condition
  have hLimit : .word "LIMIT" ∉ c.selected ++ clauseLexemes "FROM" c.source ++
      clauseLexemes "WHERE" c.condition ++ clauseLexemes "ORDER" c.order :=
    notMem_append_clauseLexemes rfl (by decide) (hOrder rfl (by decide) (by decide)) h.order
  simp only [cutClauses, Clauses.lexemes, cutAt_append hLimit,
    cutAt_append (hOrder (v := "ORDER") rfl (by decide) (by decide)),
    cutAt_append (hWhere (v := "WHERE") rfl (by decide)), cutAt_append (hFront (v := "FROM") rfl)]

def JoinClause.lexemes (j : JoinClause) : List Lexeme :=
  .word "LEFT" :: .word "JOIN" :: .identifier j.table :: .word "AS" :: .identifier j.tableAlias ::
    .word "ON" :: (columnLexemes ⟨j.tableAlias, j.foreignColumn⟩ ++
      .operator .eq :: columnLexemes ⟨j.parentAlias, j.localColumn⟩)

def RowWindow.lexemes (w : RowWindow) : List Lexeme :=
  [.number w.limit, .word "OFFSET", .number w.offset]

def countLexemes : List Lexeme := [.word "COUNT", .mark '(', .mark '*', .mark ')']

theorem readJoins?_lexemes (joins : List JoinClause) :
    readJoins? (joins.flatMap JoinClause.lexemes) = some joins := by
  induction joins with
  | nil => rfl
  | cons j joins ih =>
    rw [List.flatMap_cons]
    exact (if_pos rfl).trans (congrArg (Option.map (j :: ·)) ih)

theorem readWindow?_lexemes {w : RowWindow} (hLimit : w.limit < 2 ^ 63)
    (hOffset : w.offset < 2 ^ 63) : readWindow? w.lexemes = some w := if_pos ⟨hLimit, hOffset⟩

theorem readPredicate?_lexemes (d : Dialect) {p : Predicate ColumnRef}
    (hGrouped : p.wellGrouped = true) :
    readPredicate? d (p.lexemes d some) = some p.ungrouped := by
  simp only [readPredicate?, p.read_lexemes d hGrouped, Option.bind_eq_bind, Option.bind_some]

def orderClause (d : Dialect) (ts : List (OrderTerm ColumnRef)) : Option (List Lexeme) :=
  if ts.isEmpty then none else some (.word "BY" :: orderLexemes d ts)

theorem readOrdering?_lexemes (d : Dialect) {ts : List (OrderTerm ColumnRef)} (hNonempty : ts ≠ [])
    (hColumns : ∀ t ∈ ts, ∃ c, t.term = .column c) :
    readOrdering? d (.word "BY" :: orderLexemes d ts) = some (ts.map (OrderTerm.asRead d)) := by
  have hBy : after? [.word "BY"] (.word "BY" :: orderLexemes d ts) = some (orderLexemes d ts) :=
    after?_append [.word "BY"] _
  have hLength := length_le_orderLexemes d ts
  simp only [readOrdering?, hBy, Option.bind_eq_bind, Option.bind_some]
  exact readOrderTerms_lexemes d hNonempty hColumns
    (by simp only [readingDepth, List.length_cons]; omega) (by simp only [List.length_cons]; omega)

theorem readOrder_orderClause (d : Dialect) {ts : List (OrderTerm ColumnRef)}
    (hColumns : ∀ t ∈ ts, ∃ c, t.term = .column c) :
    ∃ read, readClause (readOrdering? d) (orderClause d ts) = some read ∧
      read.getD [] = ts.map (OrderTerm.asRead d) := by
  cases ts with
  | nil => exact ⟨none, rfl, rfl⟩
  | cons t ts =>
    have hRead := readOrdering?_lexemes d (List.cons_ne_nil t ts) hColumns
    exact ⟨_, congrArg (Option.map some) hRead, rfl⟩

theorem staysWithin_columnsLexemes (whole : String) (items : List SelectItem) :
    staysWithin (columnsLexemes whole items) = true :=
  staysWithin_flatMap (f := fun i : SelectItem => .mark ',' :: i.lexemes) fun _ _ => rfl

theorem staysWithin_joins (joins : List JoinClause) :
    staysWithin (joins.flatMap JoinClause.lexemes) = true :=
  staysWithin_flatMap fun _ _ => rfl

theorem Term.staysWithin_lexemes (d : Dialect) (position : Nat → Option Nat) (e : Term ColumnRef) :
    staysWithin (e.lexemes d position) = true := by
  induction e with
  | fold e ih =>
    have hEnd : staysWithin (foldArguments d ++ [.mark ')']) = true := by cases d <;> rfl
    have hBody := staysWithin_append ih hEnd
    cases d <;> exact hBody
  | add a b iha ihb => exact staysWithin_append iha (staysWithin_append ihb rfl)
  | remainder a b iha ihb => exact staysWithin_append iha (staysWithin_append ihb rfl)
  | _ => rfl

theorem Predicate.staysWithin_lexemes (d : Dialect) (position : Nat → Option Nat)
    (p : Predicate ColumnRef) : staysWithin (p.lexemes d position) = true := by
  induction p with
  | isNull e => exact staysWithin_append (e.staysWithin_lexemes d position) rfl
  | isNotNull e => exact staysWithin_append (e.staysWithin_lexemes d position) rfl
  | compare op a b =>
    exact staysWithin_append (a.staysWithin_lexemes d position) (b.staysWithin_lexemes d position)
  | like e pattern =>
    exact staysWithin_append (e.staysWithin_lexemes d position)
      (staysWithin_append (pattern.staysWithin_lexemes d position) rfl)
  | not p ih => exact staysWithin_append ih rfl
  | and p q ihp ihq => exact staysWithin_append ihp ihq
  | or p q ihp ihq => exact staysWithin_append ihp ihq
  | group p ih => exact staysWithin_append ih rfl

theorem OrderTerm.staysWithin_lexemes (d : Dialect) (t : OrderTerm ColumnRef) :
    staysWithin (t.lexemes d) = true := by
  cases t with
  | nullFlag e nulls =>
    exact staysWithin_append (e.staysWithin_lexemes d some) (by cases nulls <;> rfl)
  | value e byBytes direction nulls =>
    have hKey : staysWithin (if byBytes then bytesLexemes d else []) = true := by
      cases byBytes <;> cases d <;> rfl
    have hPlace : staysWithin (.word (directionText direction) ::
        (nulls.map NullPlace.lexemes).getD []) = true := by
      cases direction <;> rcases nulls with _ | _ | _ <;> rfl
    exact staysWithin_append (e.staysWithin_lexemes d some) (staysWithin_append hKey hPlace)

theorem staysWithin_orderLexemes (d : Dialect) (ts : List (OrderTerm ColumnRef)) :
    staysWithin (orderLexemes d ts) = true := by
  induction ts with
  | nil => rfl
  | cons t ts ih =>
    cases ts with
    | nil => exact t.staysWithin_lexemes d
    | cons t' ts =>
      rw [orderLexemes_cons]
      exact staysWithin_append (t.staysWithin_lexemes d) ih

section
variable {cs ds : List Char} {ts us : List Lexeme}

theorem Spells.clause (h : Spells cs ts) {w : String} (hw : isWord w = true)
    (hBody : Spells ds us) :
    Spells (cs ++ ' ' :: (w.toList ++ ' ' :: ds)) (ts ++ clauseLexemes w (some us)) :=
  h.between (spells_word hw) hBody

end

theorem JoinClause.spells_text (j : JoinClause) : Spells j.text.toList j.lexemes := by
  have hJoin := (spells_word (s := "LEFT") rfl).between (spells_word (s := "JOIN") rfl)
    (spells_identifier j.table)
  have hAlias := hJoin.between (spells_word (s := "AS") rfl) (spells_identifier j.tableAlias)
  have hOn := hAlias.between (spells_word (s := "ON") rfl)
    (spells_columnText ⟨j.tableAlias, j.foreignColumn⟩)
  have hEq := hOn.between (spells_operator .eq) (spells_columnText ⟨j.parentAlias, j.localColumn⟩)
  have hLeft : "LEFT JOIN ".toList = "LEFT".toList ++ ' ' :: ("JOIN".toList ++ [' ']) := by
    decide
  have hWord : " AS ".toList = ' ' :: ("AS".toList ++ [' ']) ∧
      " ON ".toList = ' ' :: ("ON".toList ++ [' ']) ∧
      " = ".toList = ' ' :: ((Named.name Comparison.eq).toList ++ [' ']) := by decide
  simp only [List.append_assoc, List.cons_append, List.nil_append] at hEq
  simp only [text, String.toList_append, hLeft, hWord, List.append_assoc, List.cons_append,
    List.nil_append]
  exact hEq

theorem spells_joins {cs : List Char} {ts : List Lexeme} (h : Spells cs ts)
    (joins : List JoinClause) :
    Spells (cs ++ joins.flatMap fun j => ' ' :: j.text.toList)
      (ts ++ joins.flatMap JoinClause.lexemes) := by
  induction joins generalizing cs ts with
  | nil =>
    rw [List.flatMap_nil, List.flatMap_nil, List.append_nil, List.append_nil]
    exact h
  | cons j joins ih =>
    have hJoin := h.append j.spells_text.blank (follows_cons rfl) (List.cons_ne_nil _ _)
    have hRest := ih hJoin
    rw [List.append_assoc, List.append_assoc] at hRest
    rw [List.flatMap_cons, List.flatMap_cons]
    exact hRest

namespace Query

variable (q : Query)

/-- The clauses of a text of the query, with parameters that show their positions or not. -/
def clauses (position : Nat → Option Nat) (selected : List Lexeme)
    (order : List (OrderTerm ColumnRef)) (window : Option RowWindow) : Clauses where
  selected
  source := some (.identifier q.table :: q.joins.flatMap JoinClause.lexemes)
  condition := q.condition.map (·.lexemes q.dialect position)
  order := orderClause q.dialect order
  window := window.map RowWindow.lexemes

theorem toList_joinTexts : (String.join (q.joinTexts.map (" " ++ ·))).toList =
    q.joins.flatMap fun j => ' ' :: j.text.toList := by
  rw [String.toList_join, joinTexts, List.map_map, List.flatMap_map]
  refine congrArg (q.joins.flatMap ·) (funext fun j => ?_)
  exact String.toList_append

/-- Up to its condition a query reads the same, whichever of its rows are asked for. -/
theorem spells_fromText {cs : List Char} {ts : List Lexeme} (h : Spells cs ts) :
    Spells (cs ++ ' ' :: q.fromText.toList)
      (ts ++
        clauseLexemes "FROM" (some (.identifier q.table :: q.joins.flatMap JoinClause.lexemes)) ++
        clauseLexemes "WHERE" (q.condition.map (·.lexemes q.dialect q.dialect.position))) := by
  have hJoins := spells_joins (spells_identifier q.table) q.joins
  have hFrom := h.clause (w := "FROM") (by decide) hJoins
  have hText : "FROM ".toList = "FROM".toList ++ [' '] := by decide
  simp only [fromText, String.toList_append, toList_joinTexts, hText, tableText, whereText?]
  cases q.condition with
  | none =>
    have hEmpty : "".toList = [] := by decide
    simp only [Option.map_none, hEmpty, clauseLexemes, List.append_nil, List.append_assoc,
      List.cons_append, List.nil_append] at hFrom ⊢
    exact hFrom
  | some p =>
    have hWhere := hFrom.clause (w := "WHERE") (by decide) (p.spells_text q.dialect)
    have hWord : " WHERE ".toList = ' ' :: ("WHERE".toList ++ [' ']) := by decide
    simp only [Option.map_some, String.toList_append, hWord, List.append_assoc, List.cons_append,
      List.nil_append] at hWhere ⊢
    exact hWhere

/-- Whatever is selected, the rows come after it, then their order and the window. -/
def statementLexemes (selected : List Lexeme) (order : List (OrderTerm ColumnRef))
    (window : Option RowWindow) : List Lexeme :=
  .word "SELECT" :: (q.clauses q.dialect.position selected order window).lexemes

theorem spells_countText :
    Spells q.countText.toList (q.statementLexemes countLexemes [] none) := by
  have hMarks := ((spells_nil.mark (c := ')') rfl).mark (c := '*') rfl).mark (c := '(') rfl
  have hCount := (spells_word (s := "COUNT") rfl).append hMarks (follows_cons rfl)
    (List.cons_ne_nil _ _)
  have hSelect := (spells_word (s := "SELECT") rfl).append hCount.blank (follows_cons rfl)
    (List.cons_ne_nil _ _)
  have hText : "SELECT COUNT(*) ".toList =
      "SELECT".toList ++ ' ' :: ("COUNT".toList ++ ['(', '*', ')', ' ']) := by decide
  have hFrom := q.spells_fromText hSelect
  simp only [countText, String.toList_append, hText, statementLexemes, Clauses.lexemes, clauses,
    countLexemes, clauseLexemes, orderClause, List.isEmpty_nil, if_pos, Option.map_none,
    List.append_nil, List.append_assoc, List.cons_append, List.nil_append] at hFrom ⊢
  exact hFrom

section
variable {q} (hColumns : ∀ t ∈ q.order, ∃ c, t.term = .column c)
include hColumns

theorem spells_rowsText :
    Spells q.rowsText.toList
      (q.statementLexemes (columnsLexemes q.table q.items) q.order none) := by
  have hSelect := (spells_word (s := "SELECT") rfl).append q.spells_selectText.blank
    (follows_cons rfl) (List.cons_ne_nil _ _)
  have hFrom := q.spells_fromText hSelect
  have hText : "SELECT ".toList = "SELECT".toList ++ [' '] ∧ " ".toList = [' '] := by decide
  simp only [rowsText, String.toList_append, hText, statementLexemes, Clauses.lexemes, clauses,
    Option.map_none, clauseLexemes, orderClause]
  cases hOrder : q.order with
  | nil =>
    have hEmpty : "".toList = [] := by decide
    simp only [List.isEmpty_nil, if_pos, hEmpty, clauseLexemes, List.append_nil, List.append_assoc,
      List.cons_append, List.nil_append] at hFrom ⊢
    exact hFrom
  | cons t ts =>
    have hBy := (spells_word (s := "BY") rfl).append (spells_orderText q.dialect hColumns).blank
      (follows_cons rfl) (List.cons_ne_nil _ _)
    have hOrdered := hFrom.clause (w := "ORDER") (by decide) hBy
    have hWord : " ORDER BY ".toList =
        ' ' :: ("ORDER".toList ++ ' ' :: ("BY".toList ++ [' '])) := by decide
    simp only [List.isEmpty_cons, Bool.false_eq_true, if_false, String.toList_append, hWord,
      Query.orderText, hOrder, clauseLexemes, List.append_nil, List.append_assoc, List.cons_append,
      List.nil_append] at hOrdered ⊢
    exact hOrdered

theorem spells_pageText (p : Page) :
    Spells (q.pageText p).toList (q.statementLexemes (columnsLexemes q.table q.items) q.order
      (some ⟨rowNumber p.size, rowNumber p.offset⟩)) := by
  have hRows := spells_rowsText hColumns
  have hNumbers := (spells_number (rowNumber p.size)).between (spells_word (s := "OFFSET") rfl)
    (spells_number (rowNumber p.offset))
  have hLimit := hRows.clause (w := "LIMIT") (by decide) hNumbers
  have hText : "LIMIT ".toList = "LIMIT".toList ++ [' '] ∧
      " OFFSET ".toList = ' ' :: ("OFFSET".toList ++ [' ']) ∧ " ".toList = [' '] := by decide
  simp only [pageText, Dialect.limitOffset, String.toList_append, hText, statementLexemes,
    Clauses.lexemes, clauses, Option.map_none, Option.map_some, RowWindow.lexemes, clauseLexemes,
    List.append_nil, List.append_assoc, List.cons_append, List.nil_append] at hLimit ⊢
  exact hLimit

end

/-- What a database can make out of the clauses of a query: conditions are grouped as they are
meant, parameters stand in order, and rows are sorted by columns. -/
structure Readable : Prop where
  grouped : ∀ p ∈ q.condition, p.wellGrouped = true
  positions : ∀ p ∈ q.condition, CountsFrom 0 p.positions
  columns : ∀ t ∈ q.order, ∃ c, t.term = .column c

def source : RowSource := ⟨q.table, q.joins, q.condition.map Predicate.ungrouped⟩

variable {q} {selected : List Lexeme} {order : List (OrderTerm ColumnRef)}
  {window : Option RowWindow}

theorem apart_clauses (hSelected : staysWithin selected = true) :
    (q.clauses some selected order window).Apart where
  selected := hSelected
  source := staysWithin_joins q.joins
  condition := by
    rw [clauses]
    cases q.condition with
    | none => rfl
    | some p => exact p.staysWithin_lexemes q.dialect some
  order := by
    rw [clauses, orderClause]
    split
    · rfl
    · exact staysWithin_orderLexemes q.dialect order

/-- Only the condition holds placeholders, so they are counted within it. -/
theorem numbered_statementLexemes (hSelected : selected.all (!·.isPlaceholder) = true)
    (hPositions : ∀ p ∈ q.condition, CountsFrom 0 p.positions)
    (hColumns : ∀ t ∈ order, ∃ c, t.term = .column c) :
    numbered 0 (q.statementLexemes selected order window) =
      .word "SELECT" :: (q.clauses some selected order window).lexemes := by
  have hNone {ts : List Lexeme} (h : ts.all (!·.isPlaceholder) = true) :
      ∀ t ∈ ts, t.isPlaceholder = false := by
    intro t ht
    have hNot := List.all_eq_true.mp h t ht
    rwa [Bool.not_eq_true'] at hNot
  have hSource : (clauseLexemes "FROM" (some (.identifier q.table ::
      q.joins.flatMap JoinClause.lexemes))).all (!·.isPlaceholder) = true := by
    simp [clauseLexemes, Lexeme.isPlaceholder, List.all_flatMap, JoinClause.lexemes, columnLexemes]
  have hCondition : ∃ n, Numbers 0
      (clauseLexemes "WHERE" (q.condition.map (·.lexemes q.dialect q.dialect.position)))
      (clauseLexemes "WHERE" (q.condition.map (·.lexemes q.dialect some))) n := by
    cases hEq : q.condition with
    | none => exact ⟨0, numbers_nil 0⟩
    | some p => exact ⟨_, (p.numbers q.dialect (hPositions p hEq)).cons rfl⟩
  have hOrder : (clauseLexemes "ORDER" (orderClause q.dialect order)).all (!·.isPlaceholder) =
      true := by
    unfold orderClause
    split
    · rfl
    · exact all_orderLexemes q.dialect hColumns
  have hWindow : (clauseLexemes "LIMIT" (window.map RowWindow.lexemes)).all (!·.isPlaceholder) =
      true := by
    cases window <;> rfl
  obtain ⟨n, hCondition⟩ := hCondition
  have hHead := ((numbers_nil 0).keep selected (hNone hSelected)).keep _ (hNone hSource)
  have hAll := (((hHead.append hCondition).keep _ (hNone hOrder)).keep _ (hNone hWindow)).cons
    (t := .word "SELECT") rfl
  have hEnd := hAll []
  simp only [List.append_nil, List.nil_append, numbered] at hEnd
  exact hEnd

theorem readStatement?_of_spells {text : String}
    (hSpells : Spells text.toList (q.statementLexemes selected order window))
    (hNumbered : numbered 0 (q.statementLexemes selected order window) =
      .word "SELECT" :: (q.clauses some selected order window).lexemes)
    (hSelected : staysWithin selected = true) :
    readStatement? q.dialect text = (q.clauses some selected order window).read? q.dialect := by
  have hSelect := after?_append [.word "SELECT"] (q.clauses some selected order window).lexemes
  rw [List.cons_append, List.nil_append] at hSelect
  simp only [readStatement?, hSpells.lexemes?_eq, Option.bind_eq_bind, Option.bind_some, hNumbered,
    hSelect, cutClauses_lexemes (apart_clauses hSelected)]

theorem readSource?_clauses (hGrouped : ∀ p ∈ q.condition, p.wellGrouped = true) :
    (q.clauses some selected order window).readSource? q.dialect = some q.source := by
  have hCondition :
      readClause (readPredicate? q.dialect) (q.condition.map (·.lexemes q.dialect some)) =
        some (q.condition.map Predicate.ungrouped) := by
    cases hEq : q.condition with
    | none => rfl
    | some p => exact congrArg (Option.map some) (readPredicate?_lexemes q.dialect (hGrouped p hEq))
  simp only [Clauses.readSource?, clauses, Option.bind_eq_bind, Option.bind_some,
    readJoins?_lexemes, hCondition]
  rfl

theorem readStatement?_countText (h : q.Readable) :
    readStatement? q.dialect q.countText = some (.count q.source) := by
  rw [readStatement?_of_spells q.spells_countText
    (numbered_statementLexemes rfl h.positions nofun) rfl]
  simp only [Clauses.read?, readSource?_clauses h.grouped, Option.bind_eq_bind, Option.bind_some]
  rfl

theorem read?_columns (h : q.Readable) (hWindow : readClause readWindow?
    (window.map RowWindow.lexemes) = some window) :
    (q.clauses some (columnsLexemes q.table q.items) q.order window).read? q.dialect = some
      (.select q.table q.items q.source (q.order.map (OrderTerm.asRead q.dialect)) window) := by
  have hColumns : columnsLexemes q.table q.items ≠
      [.word "COUNT", .mark '(', .mark '*', .mark ')'] := nofun
  obtain ⟨read, hRead, hOrder⟩ := readOrder_orderClause q.dialect h.columns
  simp only [Clauses.read?, readSource?_clauses h.grouped, Option.bind_eq_bind, Option.bind_some]
  simp only [clauses, hRead, hWindow, if_neg hColumns, readColumns?_lexemes, Option.bind_some,
    hOrder]
  rfl

theorem all_columnsLexemes (whole : String) (items : List SelectItem) :
    (columnsLexemes whole items).all (!·.isPlaceholder) = true := by
  simp [columnsLexemes, Lexeme.isPlaceholder, List.all_flatMap, SelectItem.lexemes, columnLexemes]

theorem readStatement?_rowsText (h : q.Readable) :
    readStatement? q.dialect q.rowsText =
      some (.select q.table q.items q.source (q.order.map (OrderTerm.asRead q.dialect)) none) := by
  rw [readStatement?_of_spells (spells_rowsText h.columns)
    (numbered_statementLexemes (all_columnsLexemes _ _) h.positions h.columns)
    (staysWithin_columnsLexemes _ _)]
  exact read?_columns h rfl

theorem rowNumber_lt (n : Nat) : rowNumber n < 2 ^ 63 :=
  Nat.lt_of_le_of_lt (Nat.min_le_right n _) (by decide)

theorem readStatement?_pageText (h : q.Readable) (p : Page) :
    readStatement? q.dialect (q.pageText p) =
      some (.select q.table q.items q.source (q.order.map (OrderTerm.asRead q.dialect))
        (some ⟨rowNumber p.size, rowNumber p.offset⟩)) := by
  rw [readStatement?_of_spells (spells_pageText h.columns p)
    (numbered_statementLexemes (all_columnsLexemes _ _) h.positions h.columns)
    (staysWithin_columnsLexemes _ _)]
  exact read?_columns h (congrArg (Option.map some)
    (readWindow?_lexemes (rowNumber_lt p.size) (rowNumber_lt p.offset)))

end Query

end RecordFilter.Sql
