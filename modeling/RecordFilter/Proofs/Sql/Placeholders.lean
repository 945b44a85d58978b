import RecordFilter.Proofs.Sql.Clauses
import RecordFilter.Proofs.Sql.SelectList

/-!
# Placeholders in the text of a query

A placeholder is a question mark or a dollar sign outside quotes, with the digits that follow it.
What stands in quotes hides it, and names are quoted, so the texts of a query show the placeholders
of its condition and no others, whatever characters the names hold.
-/

namespace RecordFilter.Sql

/-- The placeholders of a text that starts inside or outside quotes; none if a quote stays open. A
quote that is written twice closes and opens again. The digits of a placeholder are passed over like
any plain text. -/
def placeholdersFrom? : Option Char → List Char → Option (List String)
  | none, [] => some []
  | some _, [] => none
  | some quote, c :: cs => placeholdersFrom? (if c = quote then none else some quote) cs
  | none, c :: cs =>
    if c = '"' || c = '\x27' then placeholdersFrom? (some c) cs
    else if c = '?' || c = '$' then
      (placeholdersFrom? none cs).map (String.ofList (c :: cs.takeWhile Char.isDigit) :: ·)
    else placeholdersFrom? none cs

def placeholders? (text : String) : Option (List String) := placeholdersFrom? none text.toList

/-- The text shows no placeholder, whatever follows it. -/
def Hides (cs : List Char) : Prop :=
  ∀ rest, placeholdersFrom? none (cs ++ rest) = placeholdersFrom? none rest

/-- The text shows the placeholders and then what follows it. -/
def Shows (cs : List Char) (shown : List String) : Prop :=
  ∀ rest, Follows rest →
    placeholdersFrom? none (cs ++ rest) = (placeholdersFrom? none rest).map (shown ++ ·)

/-- The text starts with a character that goes on with no lexeme. -/
def BreaksOff (cs : List Char) : Prop := ∃ c rest, cs = c :: rest ∧ endsLexeme c = true

section
variable {cs ds sep : List Char} {ps qs : List String}

theorem BreaksOff.follows_append (h : BreaksOff cs) (rest : List Char) : Follows (cs ++ rest) := by
  obtain ⟨c, cs, rfl, hc⟩ := h
  exact follows_cons hc

theorem Hides.append (hc : Hides cs) (hd : Hides ds) : Hides (cs ++ ds) := by
  intro rest
  rw [List.append_assoc, hc, hd]

theorem hides_nil : Hides [] := fun _ => rfl

theorem hides_flatMap {α : Type} {as : List α} {f : α → List Char} (h : ∀ a ∈ as, Hides (f a)) :
    Hides (as.flatMap f) := by
  induction as with
  | nil => exact hides_nil
  | cons a as ih =>
    exact (h a List.mem_cons_self).append (ih fun b hb => h b (List.mem_cons_of_mem _ hb))

theorem Hides.shows (h : Hides cs) : Shows cs [] := by
  intro rest _
  rw [h]
  exact Option.map_id'.symm

theorem Hides.append_shows (h : Hides cs) (hd : Shows ds qs) : Shows (cs ++ ds) qs := by
  intro rest hRest
  rw [List.append_assoc, h, hd rest hRest]

theorem Shows.append_hides (h : Shows cs ps) (hd : Hides ds) (hBreak : BreaksOff ds) :
    Shows (cs ++ ds) ps := by
  intro rest _
  rw [List.append_assoc, h _ (hBreak.follows_append rest), hd]

theorem Shows.between (hc : Shows cs ps) (hd : Shows ds qs) (hSep : Hides sep)
    (hBreak : BreaksOff sep) : Shows (cs ++ (sep ++ ds)) (ps ++ qs) := by
  intro rest hRest
  rw [List.append_assoc, List.append_assoc, hc _ (hBreak.follows_append _), hSep, hd rest hRest,
    Option.map_map]
  refine congrArg (Option.map · (placeholdersFrom? none rest)) (funext fun us => ?_)
  exact (List.append_assoc ps qs us).symm

theorem Hides.placeholders?_eq {text : String} (h : Hides text.toList) :
    placeholders? text = some [] := by
  have hEnd := h []
  rwa [List.append_nil] at hEnd

theorem Shows.placeholders?_eq {text : String} (h : Shows text.toList ps) :
    placeholders? text = some ps := by
  have hEnd := h [] follows_nil
  rw [List.append_nil] at hEnd
  rw [placeholders?, hEnd, placeholdersFrom?, Option.map_some, List.append_nil]

end

def isPlain (c : Char) : Bool := !(c = '"' || c = '\x27' || (c = '?' || c = '$'))

theorem hides_plain {cs : List Char} (h : cs.all isPlain = true) : Hides cs := by
  intro rest
  induction cs with
  | nil => rfl
  | cons c cs ih =>
    rw [List.all_cons, Bool.and_eq_true, isPlain, Bool.not_eq_true', Bool.or_eq_false_iff] at h
    obtain ⟨⟨hQuote, hPlaceholder⟩, hRest⟩ := h
    rw [List.cons_append, placeholdersFrom?, if_neg (Bool.eq_false_iff.mp hQuote),
      if_neg (Bool.eq_false_iff.mp hPlaceholder), ih hRest]

theorem hides_text (s : String) (h : s.toList.all isPlain = true) : Hides s.toList := hides_plain h

theorem placeholdersFrom?_open {quote : Char} (h : quote = '"' ∨ quote = '\x27') (cs : List Char) :
    placeholdersFrom? none (quote :: cs) = placeholdersFrom? (some quote) cs := by
  rcases h with rfl | rfl <;> rfl

theorem placeholdersFrom?_close (quote : Char) (cs : List Char) :
    placeholdersFrom? (some quote) (quote :: cs) = placeholdersFrom? none cs := by
  rw [placeholdersFrom?, if_pos rfl]

theorem placeholdersFrom?_quoted {quote : Char} {cs : List Char} (h : quote ∉ cs)
    (rest : List Char) :
    placeholdersFrom? (some quote) (cs ++ rest) = placeholdersFrom? (some quote) rest := by
  induction cs with
  | nil => rfl
  | cons c cs ih =>
    obtain ⟨hc, hcs⟩ := List.ne_and_not_mem_of_not_mem_cons h
    rw [List.cons_append, placeholdersFrom?, if_neg (Ne.symm hc), ih hcs]

theorem hides_literal {cs : List Char} (h : '\x27' ∉ cs) :
    Hides ('\x27' :: (cs ++ ['\x27'])) := by
  intro rest
  rw [List.cons_append, placeholdersFrom?_open (.inr rfl), List.append_assoc,
    placeholdersFrom?_quoted h]
  exact placeholdersFrom?_close _ rest

theorem placeholdersFrom?_identifier (cs rest : List Char) :
    placeholdersFrom? (some '"')
      (cs.flatMap (fun c => if c = '"' then ['"', '"'] else [c]) ++ rest) =
        placeholdersFrom? (some '"') rest := by
  induction cs with
  | nil => rfl
  | cons c cs ih =>
    rw [List.flatMap_cons, List.append_assoc]
    split
    · exact ih
    · rename_i hc
      exact (placeholdersFrom?_quoted (by simpa using Ne.symm hc) _).trans ih

theorem hides_quoteIdentifier (s : String) : Hides (quoteIdentifier s).toList := by
  intro rest
  rw [toList_quoteIdentifier, List.cons_append, placeholdersFrom?_open (.inl rfl),
    List.append_assoc, placeholdersFrom?_identifier]
  exact placeholdersFrom?_close _ rest

theorem hides_qualifiedColumn (table column : String) :
    Hides (qualifiedColumn table column).toList := by
  simp only [qualifiedColumn, String.toList_append]
  exact ((hides_quoteIdentifier table).append (hides_plain rfl)).append
    (hides_quoteIdentifier column)

theorem isPlain_of_isDigit {c : Char} (h : c.isDigit = true) : isPlain c = true := by
  have hNe {d : Char} (hd : d.isDigit = false) : c ≠ d := by
    rintro rfl
    rw [h] at hd
    cases hd
  have hDouble : c ≠ '"' := hNe rfl
  have hSingle : c ≠ '\x27' := hNe rfl
  have hQuestion : c ≠ '?' := hNe rfl
  have hDollar : c ≠ '$' := hNe rfl
  simp [isPlain, hDouble, hSingle, hQuestion, hDollar]

theorem hides_digits {cs : List Char} (h : ∀ c ∈ cs, c.isDigit = true) : Hides cs :=
  hides_plain (List.all_eq_true.mpr fun c hc => isPlain_of_isDigit (h c hc))

theorem isDigit_of_mem_repr (n : Nat) : ∀ c ∈ n.repr.toList, c.isDigit = true := by
  rw [Nat.toList_repr]
  exact Text.isDigit_of_mem_toDigits

theorem shows_placeholder (d : Dialect) (n : Nat) :
    Shows (d.placeholder n).toList [d.placeholder n] := by
  have hStart {c : Char} (hc : c = '?' ∨ c = '$') {digits : List Char}
      (hDigits : ∀ x ∈ digits, x.isDigit = true) :
      Shows (c :: digits) [String.ofList (c :: digits)] := by
    intro rest hRest
    have hTake := takeWhile_append_follows not_isDigit_of_endsLexeme hDigits hRest
    have hNext : placeholdersFrom? none (c :: (digits ++ rest)) =
        (placeholdersFrom? none (digits ++ rest)).map
          (String.ofList (c :: (digits ++ rest).takeWhile Char.isDigit) :: ·) := by
      rcases hc with rfl | rfl <;> rfl
    rw [List.cons_append, hNext, hTake, hides_digits hDigits]
    rfl
  cases d with
  | sqlite =>
    have hText : (Dialect.sqlite.placeholder n).toList = ['?'] := by
      rw [Dialect.placeholder]
      rfl
    have hShown := hStart (.inl rfl) (List.forall_mem_nil _)
    rwa [← hText, String.ofList_toList] at hShown
  | postgres =>
    have hText : (Dialect.postgres.placeholder n).toList = '$' :: n.repr.toList := by
      rw [Dialect.placeholder, String.toList_append]
      rfl
    have hShown := hStart (.inr rfl) (isDigit_of_mem_repr n)
    rwa [← hText, String.ofList_toList] at hShown

theorem Shows.within {cs before after : List Char} {ps : List String} (h : Shows cs ps)
    (hBefore : Hides before) (hAfter : Hides after) (hBreak : BreaksOff after) :
    Shows (before ++ (cs ++ after)) ps :=
  hBefore.append_shows (h.append_hides hAfter hBreak)

theorem Shows.group {cs : List Char} {ps : List String} (h : Shows cs ps) :
    Shows ('(' :: (cs ++ [')'])) ps :=
  h.within (hides_text "(" (by decide)) (hides_text ")" (by decide)) ⟨_, _, rfl, rfl⟩

theorem shows_foldText (d : Dialect) {e : String} {ps : List String} (h : Shows e.toList ps) :
    Shows (d.foldText e).toList ps := by
  cases d with
  | sqlite =>
    have hCall := (hides_text "LOWER" (by decide)).append_shows h.group
    simp only [Dialect.foldText, String.toList_append, List.append_assoc]
    exact hCall
  | postgres =>
    have hLetters : Hides ", 'ABCDEFGHIJKLMNOPQRSTUVWXYZ', 'abcdefghijklmnopqrstuvwxyz')".toList :=
      fun _ => rfl
    have hCall := h.within (hides_text "TRANSLATE(" (by decide)) hLetters
      ⟨_, _, rfl, rfl⟩
    simp only [Dialect.foldText, String.toList_append, List.append_assoc]
    exact hCall

theorem Term.shows_text (d : Dialect) (e : Term ColumnRef) :
    Shows (e.text d columnText).toList (e.positions.map d.placeholder) := by
  induction e with
  | column c => exact (hides_qualifiedColumn c.table c.column).shows
  | parameter n => exact shows_placeholder d n
  | integer n => exact (hides_digits (isDigit_of_mem_repr n)).shows
  | emptyText =>
    have hEmpty : Hides "''".toList := hides_literal List.not_mem_nil
    exact hEmpty.shows
  | fold e ih => exact shows_foldText d ih
  | add a b iha ihb =>
    have hSum := (iha.between ihb (hides_text " + " (by decide)) ⟨_, _, rfl, rfl⟩).group
    simp only [text, positions, List.map_append, String.toList_append, List.append_assoc]
    simp only [List.append_assoc] at hSum
    exact hSum
  | remainder a b iha ihb =>
    have hRest := (iha.between ihb (hides_text " % " (by decide)) ⟨_, _, rfl, rfl⟩).group
    simp only [text, positions, List.map_append, String.toList_append, List.append_assoc]
    simp only [List.append_assoc] at hRest
    exact hRest

theorem name_isPlain (op : Comparison) : (Named.name op).toList.all isPlain = true := by
  cases op <;> decide

theorem Predicate.shows_text (d : Dialect) (p : Predicate ColumnRef) :
    Shows (p.text d columnText).toList (p.positions.map d.placeholder) := by
  induction p with
  | isNull e =>
    have hNull := (e.shows_text d).append_hides (hides_text " IS NULL" (by decide))
      ⟨_, _, rfl, rfl⟩
    simp only [text, String.toList_append]
    exact hNull
  | isNotNull e =>
    have hNotNull := (e.shows_text d).append_hides (hides_text " IS NOT NULL" (by decide))
      ⟨_, _, rfl, rfl⟩
    simp only [text, String.toList_append]
    exact hNotNull
  | compare op a b =>
    have hOperator : Hides (" ".toList ++ ((Named.name op).toList ++ " ".toList)) :=
      (hides_text " " (by decide)).append
        ((hides_text _ (name_isPlain op)).append (hides_text " " (by decide)))
    have hCompare := (a.shows_text d).between (b.shows_text d) hOperator ⟨_, _, rfl, rfl⟩
    simp only [text, positions, List.map_append, String.toList_append, List.append_assoc]
    simp only [List.append_assoc] at hCompare
    exact hCompare
  | like e pattern =>
    have hEscape : Hides " ESCAPE '\\'".toList := fun _ => rfl
    have hLike := ((e.shows_text d).between (pattern.shows_text d) (hides_text " LIKE " (by decide))
      ⟨_, _, rfl, rfl⟩).append_hides hEscape ⟨_, _, rfl, rfl⟩
    simp only [text, positions, List.map_append, String.toList_append, List.append_assoc]
    simp only [List.append_assoc] at hLike
    exact hLike
  | not p ih =>
    have hNot := (hides_text "NOT " (by decide)).append_shows ih.group
    simp only [text, String.toList_append, List.append_assoc]
    exact hNot
  | and p q ihp ihq =>
    have hAnd := ihp.between ihq (hides_text " AND " (by decide)) ⟨_, _, rfl, rfl⟩
    simp only [text, positions, List.map_append, String.toList_append, List.append_assoc]
    exact hAnd
  | or p q ihp ihq =>
    have hOr := ihp.between ihq (hides_text " OR " (by decide)) ⟨_, _, rfl, rfl⟩
    simp only [text, positions, List.map_append, String.toList_append, List.append_assoc]
    exact hOr
  | group p ih =>
    simp only [text, String.toList_append, List.append_assoc]
    exact ih.group

-- A quote that is written twice stays inside, and so does what looks like a placeholder there.
example : placeholders? "\"a\"\"?\".\"$1\" = $12 OR 'x?' <> ?" = some ["$12", "?"] := by decide

theorem JoinClause.hides_text (j : JoinClause) : Hides j.text.toList := by
  have hOn := (Sql.hides_text " ON " (by decide)).append
    ((hides_qualifiedColumn j.tableAlias j.foreignColumn).append
      ((Sql.hides_text " = " (by decide)).append
        (hides_qualifiedColumn j.parentAlias j.localColumn)))
  have hAs := (Sql.hides_text " AS " (by decide)).append
    ((hides_quoteIdentifier j.tableAlias).append hOn)
  have hJoin := (Sql.hides_text "LEFT JOIN " (by decide)).append
    ((hides_quoteIdentifier j.table).append hAs)
  have hText : j.text = "LEFT JOIN " ++ quoteIdentifier j.table ++ " AS " ++
      quoteIdentifier j.tableAlias ++ " ON " ++ qualifiedColumn j.tableAlias j.foreignColumn ++
      " = " ++ qualifiedColumn j.parentAlias j.localColumn := rfl
  rw [hText]
  simp only [String.toList_append, List.append_assoc]
  exact hJoin

theorem SelectItem.hides_text (i : SelectItem) : Hides i.text.toList := by
  have hItem := (hides_qualifiedColumn i.column.table i.column.column).append
    ((Sql.hides_text " AS " (by decide)).append (hides_quoteIdentifier i.output))
  simp only [text, String.toList_append, List.append_assoc]
  exact hItem

theorem hides_intercalate {texts : List String} (h : ∀ s ∈ texts, Hides s.toList) :
    Hides (", ".intercalate texts).toList := by
  cases texts with
  | nil => exact hides_text "" rfl
  | cons first rest =>
    rw [toList_intercalate_cons]
    refine (h first List.mem_cons_self).append (hides_flatMap fun s hs => ?_)
    exact (hides_text ", " (by decide)).append (h s (List.mem_cons_of_mem _ hs))

theorem OrderTerm.hides_text (d : Dialect) {t : OrderTerm ColumnRef} {c : ColumnRef}
    (hColumn : t.term = .column c) : Hides (t.text d columnText).toList := by
  have hText : Hides (columnText c).toList := hides_qualifiedColumn c.table c.column
  cases t with
  | nullFlag e nulls =>
    obtain rfl : e = .column c := hColumn
    have hWhen := (Sql.hides_text "CASE WHEN " (by decide)).append hText
    cases nulls with
    | first =>
      have hFlag := hWhen.append (Sql.hides_text " IS NULL THEN 0 ELSE 1 END" (by decide))
      simp only [text, String.toList_append]
      exact hFlag
    | last =>
      have hFlag := hWhen.append (Sql.hides_text " IS NULL THEN 1 ELSE 0 END" (by decide))
      simp only [text, String.toList_append]
      exact hFlag
  | value e byBytes direction nulls =>
    obtain rfl : e = .column c := hColumn
    have hKey : Hides (if byBytes then d.binaryOrder (columnText c) else columnText c).toList := by
      cases byBytes with
      | false => exact hText
      | true =>
        cases d with
        | sqlite => exact hText
        | postgres =>
          have hBytes : Hides " COLLATE \"C\"".toList := fun _ => rfl
          simp only [if_pos, Dialect.binaryOrder, String.toList_append]
          exact hText.append hBytes
    have hDirection : Hides (directionText direction).toList := by
      cases direction <;> exact Sql.hides_text _ (by decide)
    have hValue (place : String) (hPlace : place.toList.all isPlain = true) :
        Hides ((if byBytes then d.binaryOrder (columnText c) else columnText c) ++ " " ++
          directionText direction ++ place).toList := by
      simp only [String.toList_append]
      exact ((hKey.append (Sql.hides_text " " (by decide))).append hDirection).append
        (Sql.hides_text place hPlace)
    rcases nulls with _ | _ | _
    · exact hValue "" (by decide)
    · exact hValue (" " ++ NullPlace.first.text) (by decide)
    · exact hValue (" " ++ NullPlace.last.text) (by decide)

namespace Query

def positions (q : Query) : List Nat := (q.condition.map Predicate.positions).getD []

variable (q : Query)

theorem hides_tableText : Hides q.tableText.toList := hides_quoteIdentifier q.table

theorem hides_selectText : Hides q.selectText.toList := by
  apply hides_intercalate
  intro s hs
  rcases List.mem_cons.mp hs with rfl | hs
  · rw [String.toList_append]
    exact q.hides_tableText.append (Sql.hides_text ".*" (by decide))
  · obtain ⟨i, -, rfl⟩ := List.mem_map.mp hs
    exact i.hides_text

theorem hides_joinTexts : ∀ s ∈ q.joinTexts, Hides s.toList := by
  intro s hs
  obtain ⟨j, -, rfl⟩ := List.mem_map.mp hs
  exact j.hides_text

theorem shows_fromText : Shows q.fromText.toList (q.positions.map q.dialect.placeholder) := by
  have hJoins : Hides (String.join (q.joinTexts.map (" " ++ ·))).toList := by
    rw [String.toList_join, List.flatMap_map]
    refine hides_flatMap fun s hs => ?_
    rw [String.toList_append]
    exact (Sql.hides_text " " (by decide)).append (q.hides_joinTexts s hs)
  have hTables := ((Sql.hides_text "FROM " (by decide)).append q.hides_tableText).append hJoins
  rw [fromText, whereText?, positions]
  cases q.condition with
  | none =>
    have hNone : Hides "".toList := Sql.hides_text "" rfl
    simp only [String.toList_append]
    exact (hTables.append hNone).shows
  | some p =>
    have hWhere := (hTables.append (Sql.hides_text " WHERE " (by decide))).append_shows
      (p.shows_text q.dialect)
    simp only [Option.map_some, Option.getD_some, String.toList_append]
    simp only [List.append_assoc] at hWhere ⊢
    exact hWhere

theorem placeholders?_countText :
    placeholders? q.countText = some (q.positions.map q.dialect.placeholder) := by
  have hText : q.countText = "SELECT COUNT(*) " ++ q.fromText := rfl
  apply Shows.placeholders?_eq
  rw [hText, String.toList_append]
  exact (Sql.hides_text "SELECT COUNT(*) " (by decide)).append_shows q.shows_fromText

variable {q} (hColumns : ∀ t ∈ q.order, ∃ c, t.term = .column c)
include hColumns

theorem hides_orderText : Hides q.orderText.toList := by
  apply hides_intercalate
  intro s hs
  obtain ⟨t, ht, rfl⟩ := List.mem_map.mp hs
  obtain ⟨c, hc⟩ := hColumns t ht
  exact OrderTerm.hides_text q.dialect hc

theorem placeholders?_pageText (p : Page) :
    placeholders? (q.pageText p) = some (q.positions.map q.dialect.placeholder) := by
  have hNumber (n : Nat) : Hides n.repr.toList := hides_digits (isDigit_of_mem_repr n)
  have hSelect := ((Sql.hides_text "SELECT " (by decide)).append
    (q.hides_selectText.append (Sql.hides_text " " (by decide)))).append_shows q.shows_fromText
  have hOrder : Hides (if q.order.isEmpty then "" else " ORDER BY " ++ q.orderText).toList := by
    split
    · exact Sql.hides_text "" rfl
    · rw [String.toList_append]
      exact (Sql.hides_text " ORDER BY " (by decide)).append (hides_orderText hColumns)
  have hLimit (limit offset : Nat) : Hides (" ".toList ++
      (q.dialect.limitOffset limit offset).toList) := by
    simp only [Dialect.limitOffset, String.toList_append]
    exact (Sql.hides_text " " (by decide)).append ((((Sql.hides_text "LIMIT " (by decide)).append
      (hNumber limit)).append (Sql.hides_text " OFFSET " (by decide))).append (hNumber offset))
  -- A placeholder at the end of the condition stops there: a blank follows, order or not.
  have hBlank (limit : List Char) : ∃ rest,
      (if q.order.isEmpty then "" else " ORDER BY " ++ q.orderText).toList ++
        (" ".toList ++ limit) = ' ' :: rest := by
    split
    · exact ⟨_, rfl⟩
    · rw [String.toList_append]
      exact ⟨_, rfl⟩
  obtain ⟨rest, hRest⟩ :=
    hBlank (q.dialect.limitOffset (rowNumber p.size) (rowNumber p.offset)).toList
  have hPage := hSelect.append_hides (hOrder.append (hLimit _ _)) ⟨' ', rest, hRest, rfl⟩
  apply Shows.placeholders?_eq
  rw [pageText, rowsText]
  simp only [String.toList_append, List.append_assoc] at hPage ⊢
  exact hPage

end Query

end RecordFilter.Sql
