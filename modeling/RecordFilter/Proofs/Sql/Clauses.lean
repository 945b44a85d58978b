import RecordFilter.Proofs.Sql.Collation
import RecordFilter.Proofs.Sql.Numbering
import RecordFilter.Proofs.Sql.ReadBack

/-!
# Reading back the clauses of a query

A WHERE clause is read as the predicate it was printed from and an ORDER BY clause as its terms.
What a dialect leaves out of the text, the order by bytes of text it sorts by bytes anyway, is not
read either.
-/

namespace RecordFilter.Sql

theorem length_numbered (k : Nat) (ts : List Lexeme) : (numbered k ts).length = ts.length := by
  fun_induction numbered k ts <;> simp_all

theorem Predicate.read_lexemes (d : Dialect) {p : Predicate ColumnRef}
    (hGrouped : p.wellGrouped = true) :
    read d (readingDepth (p.lexemes d some).length) .disjunction (p.lexemes d some) =
      some (.predicate p.ungrouped, []) := by
  have hRead := (p.reads d hGrouped).loosest (startsPlain_lexemes_of_level d)
    (readingDepth (p.lexemes d some).length) [] (by simp only [readingDepth, Level.height]; omega)
    (stops_nil _)
  rwa [List.append_nil] at hRead

theorem Predicate.readCondition?_text (d : Dialect) {p : Predicate ColumnRef}
    (hGrouped : p.wellGrouped = true) (hPositions : CountsFrom 0 p.positions) :
    readCondition? d (p.text d columnText) = some p.ungrouped := by
  have hNumbered : numbered 0 (p.lexemes d d.position) = p.lexemes d some := by
    have h := p.numbers d hPositions []
    rwa [List.append_nil, numbered, List.append_nil] at h
  have hLength : (p.lexemes d d.position).length = (p.lexemes d some).length := by
    rw [← hNumbered, length_numbered]
  simp only [readCondition?, (p.spells_text d).lexemes?_eq, Option.bind_eq_bind, Option.bind_some,
    hNumbered, hLength, p.read_lexemes d hGrouped]

namespace NullPlace

def flagLexemes : NullPlace → List Lexeme
  | first => [.word "THEN", .number 0, .word "ELSE", .number 1, .word "END"]
  | last => [.word "THEN", .number 1, .word "ELSE", .number 0, .word "END"]

def lexemes : NullPlace → List Lexeme
  | first => [.word "NULLS", .word "FIRST"]
  | last => [.word "NULLS", .word "LAST"]

end NullPlace

/-- How a dialect asks for the order of bytes. -/
def bytesLexemes : Dialect → List Lexeme
  | .sqlite => []
  | .postgres => [.word "COLLATE", .identifier "C"]

namespace OrderTerm

variable {α : Type}

def term : OrderTerm α → Term α
  | .nullFlag e _ | .value e _ _ _ => e

def lexemes (d : Dialect) : OrderTerm ColumnRef → List Lexeme
  | .nullFlag e nulls => .word "CASE" :: .word "WHEN" ::
      (e.lexemes d some ++ .word "IS" :: .word "NULL" :: nulls.flagLexemes)
  | .value e byBytes direction nulls => e.lexemes d some ++
      ((if byBytes then bytesLexemes d else []) ++ .word (directionText direction) ::
        (nulls.map NullPlace.lexemes).getD [])

/-- The term as its text has it. -/
def asRead (d : Dialect) : OrderTerm α → OrderTerm α
  | .nullFlag e nulls => .nullFlag e nulls
  | .value e byBytes direction nulls => .value e (byBytes && d = .postgres) direction nulls

end OrderTerm

def orderLexemes (d : Dialect) : List (OrderTerm ColumnRef) → List Lexeme
  | [] => []
  | [t] => t.lexemes d
  | t :: ts => t.lexemes d ++ .mark ',' :: orderLexemes d ts

theorem Spells.number {cs : List Char} {ts : List Lexeme} (h : Spells cs ts) (n : Nat) :
    Spells (cs ++ ' ' :: n.repr.toList) (ts ++ [.number n]) :=
  h.append (spells_number n).blank (follows_cons rfl) (List.cons_ne_nil _ _)

theorem spells_flag {cs : List Char} {ts : List Lexeme} (h : Spells cs ts) (m n : Nat) :
    Spells ("CASE WHEN ".toList ++ (cs ++ (" IS NULL THEN ".toList ++ (m.repr.toList ++
      (" ELSE ".toList ++ (n.repr.toList ++ " END".toList))))))
      (.word "CASE" :: .word "WHEN" :: (ts ++ [.word "IS", .word "NULL", .word "THEN", .number m,
        .word "ELSE", .number n, .word "END"])) := by
  have hTest := (h.words "IS" ["NULL", "THEN"] (by decide)).number m
  have hFlag := ((hTest.words "ELSE" [] (by decide)).number n).words "END" [] (by decide)
  have hWhen := (spells_word (s := "CASE") rfl).words "WHEN" [] (by decide)
  have hCase := hWhen.append hFlag.blank (follows_cons rfl) (List.cons_ne_nil _ _)
  simp only [List.append_assoc] at hCase ⊢
  exact hCase

theorem spells_direction {cs : List Char} {ts : List Lexeme} (h : Spells cs ts)
    (direction : Direction) :
    Spells (cs ++ ' ' :: (directionText direction).toList)
      (ts ++ [.word (directionText direction)]) := by
  have hWord : isWord (directionText direction) = true := by cases direction <;> decide
  exact h.append (spells_word hWord).blank (follows_cons rfl) (List.cons_ne_nil _ _)

theorem spells_key (d : Dialect) {e : String} {ts : List Lexeme} (h : Spells e.toList ts)
    (byBytes : Bool) :
    Spells (if byBytes then d.binaryOrder e else e).toList
      (ts ++ if byBytes then bytesLexemes d else []) := by
  cases byBytes with
  | false =>
    rw [if_neg nofun, if_neg nofun, List.append_nil]
    exact h
  | true =>
    rw [if_pos rfl, if_pos rfl]
    cases d with
    | sqlite =>
      rw [bytesLexemes, List.append_nil]
      exact h
    | postgres =>
      have hBytes := (h.words "COLLATE" [] (by decide)).append (spells_identifier "C").blank
        (follows_cons rfl) (List.cons_ne_nil _ _)
      simp only [List.append_assoc] at hBytes
      simp only [Dialect.binaryOrder, String.toList_append]
      exact hBytes

theorem spells_place {cs : List Char} {ts : List Lexeme} (h : Spells cs ts)
    (nulls : Option NullPlace) :
    Spells (cs ++ (match nulls with
      | some p => " " ++ p.text
      | none => "").toList) (ts ++ (nulls.map NullPlace.lexemes).getD []) := by
  cases nulls with
  | none =>
    have hEmpty : "".toList = [] := rfl
    rw [hEmpty, List.append_nil, Option.map_none, Option.getD_none, List.append_nil]
    exact h
  | some p =>
    simp only [String.toList_append]
    cases p with
    | first => exact h.words "NULLS" ["FIRST"] (by decide)
    | last => exact h.words "NULLS" ["LAST"] (by decide)

theorem OrderTerm.spells_text (d : Dialect) {t : OrderTerm ColumnRef} {c : ColumnRef}
    (hColumn : t.term = .column c) : Spells (t.text d columnText).toList (t.lexemes d) := by
  cases t with
  | nullFlag e nulls =>
    obtain rfl : e = .column c := hColumn
    cases nulls with
    | first =>
      have hFlag := spells_flag (spells_columnText c) 0 1
      simp only [text, String.toList_append, List.append_assoc]
      exact hFlag
    | last =>
      have hFlag := spells_flag (spells_columnText c) 1 0
      simp only [text, String.toList_append, List.append_assoc]
      exact hFlag
  | value e byBytes direction nulls =>
    obtain rfl : e = .column c := hColumn
    have hKey := spells_key d (spells_columnText c) byBytes
    have hValue := spells_place (spells_direction hKey direction) nulls
    simp only [List.append_assoc] at hValue
    simp only [text, Term.text, String.toList_append, List.append_assoc]
    exact hValue

def EndsTerm (rest : List Lexeme) : Prop := rest = [] ∨ ∃ ts, rest = .mark ',' :: ts

section
variable {rest : List Lexeme}

theorem readCollation_lexemes (d : Dialect) (byBytes : Bool) (direction : Direction) :
    readCollation ((if byBytes then bytesLexemes d else []) ++
      .word (directionText direction) :: rest) =
        (byBytes && d = .postgres, .word (directionText direction) :: rest) := by
  cases byBytes <;> cases d <;> cases direction <;> rfl

theorem readDirection_lexemes (direction : Direction) :
    readDirection (.word (directionText direction) :: rest) = (direction, rest) := by
  cases direction <;> rfl

theorem readNulls_lexemes (nulls : Option NullPlace) (hRest : EndsTerm rest) :
    readNulls ((nulls.map NullPlace.lexemes).getD [] ++ rest) = (nulls, rest) := by
  cases nulls with
  | none => rcases hRest with rfl | ⟨ts, rfl⟩ <;> rfl
  | some p => cases p <;> rfl

theorem readFlag_lexemes (nulls : NullPlace) :
    readFlag (nulls.flagLexemes ++ rest) = some (nulls, rest) := by
  cases nulls <;> rfl

theorem readOrderTerm_lexemes (d : Dialect) {t : OrderTerm ColumnRef} {c : ColumnRef}
    (hColumn : t.term = .column c) {depth : Nat}
    (hDepth : readingDepth (t.lexemes d).length ≤ depth) (hRest : EndsTerm rest) :
    readOrderTerm d depth (t.lexemes d ++ rest) = some (t.asRead d, rest) := by
  rw [readingDepth] at hDepth
  cases t with
  | nullFlag e nulls =>
    obtain rfl : e = .column c := hColumn
    have hStops : Stops .disjunction (nulls.flagLexemes ++ rest) := by
      cases nulls <;> exact stops_cons (by decide)
    have hReads := (Predicate.reads d (p := .isNull (.column c)) rfl).loosest
      (Predicate.startsPlain_lexemes_of_level d)
    have hUngrouped : (Predicate.isNull (.column c)).ungrouped = .isNull (.column c) := rfl
    have hRead := hReads depth (nulls.flagLexemes ++ rest) (by
      simp only [OrderTerm.lexemes, Predicate.lexemes, List.length_cons, List.length_append,
        List.length_nil, Level.height] at hDepth ⊢
      omega) hStops
    rw [hUngrouped] at hRead
    have hText : (OrderTerm.nullFlag (.column c) nulls).lexemes d ++ rest =
        [.word "CASE", .word "WHEN"] ++ ((Predicate.isNull (.column c)).lexemes d some ++
          (nulls.flagLexemes ++ rest)) := by
      simp only [OrderTerm.lexemes, Predicate.lexemes, List.cons_append, List.append_assoc,
        List.nil_append]
    rw [hText, readOrderTerm, after?_append]
    simp only [hRead, readFlag_lexemes, Option.bind_eq_bind, Option.bind_some]
    rfl
  | value e byBytes direction nulls =>
    obtain rfl : e = .column c := hColumn
    have hStops : Stops .sum ((if byBytes then bytesLexemes d else []) ++
        .word (directionText direction) :: ((nulls.map NullPlace.lexemes).getD [] ++ rest)) := by
      cases byBytes <;> cases d <;> cases direction <;> exact stops_cons (by decide)
    have hRead := Predicate.reads_sum d (.column c) depth _ (by
      simp only [OrderTerm.lexemes, List.length_append, Level.height] at hDepth ⊢
      omega) hStops
    have hCase (ts : List Lexeme) : after? [.word "CASE", .word "WHEN"]
        ((Term.column c).lexemes d some ++ ts) = none := rfl
    rw [OrderTerm.lexemes, List.append_assoc, List.append_assoc, List.cons_append, readOrderTerm,
      hCase]
    simp only [hRead, Option.bind_eq_bind, Option.bind_some, readCollation_lexemes,
      readDirection_lexemes, readNulls_lexemes nulls hRest]
    rfl

end

theorem orderLexemes_cons (d : Dialect) (t t' : OrderTerm ColumnRef)
    (ts : List (OrderTerm ColumnRef)) :
    orderLexemes d (t :: t' :: ts) = t.lexemes d ++ .mark ',' :: orderLexemes d (t' :: ts) := by
  rw [orderLexemes]
  exact nofun

theorem readOrderTerms_lexemes (d : Dialect) {depth : Nat} {ts : List (OrderTerm ColumnRef)}
    (hNonempty : ts ≠ []) (hColumns : ∀ t ∈ ts, ∃ c, t.term = .column c)
    (hDepth : readingDepth (orderLexemes d ts).length ≤ depth) {n : Nat} (hn : ts.length ≤ n) :
    readOrderTerms d depth n (orderLexemes d ts) = some (ts.map (OrderTerm.asRead d)) := by
  induction ts generalizing n with
  | nil => exact absurd rfl hNonempty
  | cons t ts ih =>
    obtain ⟨n, rfl⟩ : ∃ m, n = m + 1 := ⟨n - 1, by simp only [List.length_cons] at hn; omega⟩
    obtain ⟨c, hc⟩ := hColumns t List.mem_cons_self
    cases ts with
    | nil =>
      have hRead := readOrderTerm_lexemes d hc hDepth (.inl rfl)
      rw [List.append_nil] at hRead
      simp only [orderLexemes, readOrderTerms, hRead, Option.bind_eq_bind, Option.bind_some]
      rfl
    | cons t' ts =>
      rw [orderLexemes_cons] at hDepth ⊢
      simp only [readingDepth, List.length_append, List.length_cons] at hDepth
      have hTerm : readingDepth (t.lexemes d).length ≤ depth := by
        simp only [readingDepth]
        omega
      have hRead := readOrderTerm_lexemes d hc hTerm (.inr ⟨orderLexemes d (t' :: ts), rfl⟩)
      have hRest := ih (List.cons_ne_nil _ _) (fun u hu => hColumns u (List.mem_cons_of_mem _ hu))
        (by simp only [readingDepth]; omega) (Nat.le_of_succ_le_succ hn)
      have hComma : after? [.mark ','] (.mark ',' :: orderLexemes d (t' :: ts)) =
          some (orderLexemes d (t' :: ts)) := after?_append [.mark ','] _
      simp only [readOrderTerms, hRead, Option.bind_eq_bind, Option.bind_some, hComma, hRest]
      rfl

theorem spells_orderText (d : Dialect) {ts : List (OrderTerm ColumnRef)}
    (hColumns : ∀ t ∈ ts, ∃ c, t.term = .column c) :
    Spells (orderText d columnText ts).toList (orderLexemes d ts) := by
  induction ts with
  | nil => exact spells_nil
  | cons t ts ih =>
    obtain ⟨c, hc⟩ := hColumns t List.mem_cons_self
    have hTerm := OrderTerm.spells_text d hc
    cases ts with
    | nil =>
      rw [orderText, List.map_singleton, String.intercalate_singleton]
      exact hTerm
    | cons t' ts =>
      have hRest := (ih fun u hu => hColumns u (List.mem_cons_of_mem _ hu)).blank.mark (c := ',') rfl
      have hBoth := hTerm.append hRest (follows_cons rfl) (List.cons_ne_nil _ _)
      rw [orderText, List.map_cons, List.map_cons, String.intercalate_cons_cons, orderLexemes_cons]
      simp only [String.toList_append, List.append_assoc]
      exact hBoth

theorem OrderTerm.all_lexemes (d : Dialect) {t : OrderTerm ColumnRef} {c : ColumnRef}
    (hColumn : t.term = .column c) : (t.lexemes d).all (fun u => !u.isPlaceholder) = true := by
  cases t with
  | nullFlag e nulls =>
    obtain rfl : e = .column c := hColumn
    cases nulls <;> rfl
  | value e byBytes direction nulls =>
    obtain rfl : e = .column c := hColumn
    have hKey : (if byBytes then bytesLexemes d else []).all (fun u => !u.isPlaceholder) = true := by
      cases byBytes <;> cases d <;> rfl
    have hPlace : ((nulls.map NullPlace.lexemes).getD []).all (fun u => !u.isPlaceholder) =
        true := by
      rcases nulls with _ | _ | _ <;> rfl
    rw [OrderTerm.lexemes, List.all_append, List.all_append, List.all_cons, hKey, hPlace]
    rfl

theorem all_orderLexemes (d : Dialect) {ts : List (OrderTerm ColumnRef)}
    (hColumns : ∀ t ∈ ts, ∃ c, t.term = .column c) :
    (orderLexemes d ts).all (fun u => !u.isPlaceholder) = true := by
  induction ts with
  | nil => rfl
  | cons t ts ih =>
    obtain ⟨c, hc⟩ := hColumns t List.mem_cons_self
    have hRest := ih fun u hu => hColumns u (List.mem_cons_of_mem _ hu)
    cases ts with
    | nil => exact OrderTerm.all_lexemes d hc
    | cons t' ts =>
      rw [orderLexemes_cons, List.all_append, List.all_cons, OrderTerm.all_lexemes d hc, hRest]
      rfl

theorem numbered_orderLexemes (d : Dialect) {ts : List (OrderTerm ColumnRef)}
    (hColumns : ∀ t ∈ ts, ∃ c, t.term = .column c) :
    numbered 0 (orderLexemes d ts) = orderLexemes d ts := by
  have hNone : ∀ u ∈ orderLexemes d ts, u.isPlaceholder = false := by
    intro u hu
    have h := List.all_eq_true.mp (all_orderLexemes d hColumns) u hu
    rwa [Bool.not_eq_true'] at h
  have hKeep := (numbers_nil 0).keep _ hNone []
  rwa [List.nil_append, List.append_nil, numbered, List.append_nil] at hKeep

theorem OrderTerm.length_lexemes_pos (d : Dialect) (t : OrderTerm ColumnRef) :
    0 < (t.lexemes d).length := by
  cases t with
  | nullFlag e nulls => exact Nat.succ_pos _
  | value e byBytes direction nulls =>
    rw [OrderTerm.lexemes, List.length_append, List.length_append, List.length_cons]
    omega

theorem length_le_orderLexemes (d : Dialect) (ts : List (OrderTerm ColumnRef)) :
    ts.length ≤ (orderLexemes d ts).length := by
  induction ts with
  | nil => exact Nat.le_refl 0
  | cons t ts ih =>
    have hTerm := t.length_lexemes_pos d
    cases ts with
    | nil => exact hTerm
    | cons t' ts =>
      rw [orderLexemes_cons]
      simp only [List.length_append, List.length_cons] at ih ⊢
      omega

theorem readOrder?_orderText (d : Dialect) {ts : List (OrderTerm ColumnRef)}
    (hColumns : ∀ t ∈ ts, ∃ c, t.term = .column c) :
    readOrder? d (orderText d columnText ts) = some (ts.map (OrderTerm.asRead d)) := by
  have hLength := length_le_orderLexemes d ts
  simp only [readOrder?, (spells_orderText d hColumns).lexemes?_eq, Option.bind_eq_bind,
    Option.bind_some, numbered_orderLexemes d hColumns]
  split
  · rename_i hEmpty
    rw [List.isEmpty_iff.mp hEmpty] at hLength
    have hNil : ts = [] := List.length_eq_zero_iff.mp (Nat.le_zero.mp hLength)
    rw [hNil]
    rfl
  · rename_i hSome
    have hNonempty : ts ≠ [] := by
      rintro rfl
      exact hSome rfl
    exact readOrderTerms_lexemes d hNonempty hColumns (Nat.le_refl _) (Nat.le_succ_of_le hLength)

end RecordFilter.Sql
