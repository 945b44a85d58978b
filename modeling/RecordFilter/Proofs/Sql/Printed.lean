import RecordFilter.Sql.Reading
import RecordFilter.Proofs.Sql.Spelling

/-!
# The lexemes of expressions

Every term, predicate and term of an ordering is printed as a row of lexemes. Placeholders show
their positions or not, as the dialect has it.
-/

namespace RecordFilter.Sql

def columnLexemes (c : ColumnRef) : List Lexeme :=
  [.identifier c.table, .mark '.', .identifier c.column]

def foldLexemes (d : Dialect) (e : List Lexeme) : List Lexeme :=
  .word d.foldName :: .mark '(' :: (e ++ (foldArguments d ++ [.mark ')']))

section
variable (d : Dialect) (position : Nat → Option Nat)

def Term.lexemes : Term ColumnRef → List Lexeme
  | .column c => columnLexemes c
  | .parameter n => [.placeholder (position n)]
  | .integer n => [.number n]
  | .emptyText => [.literal ""]
  | .fold e => foldLexemes d e.lexemes
  | .add a b => .mark '(' :: (a.lexemes ++ .mark '+' :: (b.lexemes ++ [.mark ')']))
  | .remainder a b => .mark '(' :: (a.lexemes ++ .mark '%' :: (b.lexemes ++ [.mark ')']))

def Predicate.lexemes : Predicate ColumnRef → List Lexeme
  | .isNull e => e.lexemes d position ++ [.word "IS", .word "NULL"]
  | .isNotNull e => e.lexemes d position ++ [.word "IS", .word "NOT", .word "NULL"]
  | .compare op a b => a.lexemes d position ++ .operator op :: b.lexemes d position
  | .like e pattern => e.lexemes d position ++ .word "LIKE" ::
      (pattern.lexemes d position ++ [.word "ESCAPE", .literal "\\"])
  | .not p => .word "NOT" :: .mark '(' :: (p.lexemes ++ [.mark ')'])
  | .and p q => p.lexemes ++ .word "AND" :: q.lexemes
  | .or p q => p.lexemes ++ .word "OR" :: q.lexemes
  | .group p => .mark '(' :: (p.lexemes ++ [.mark ')'])

end

theorem spells_columnText (c : ColumnRef) : Spells (columnText c).toList (columnLexemes c) := by
  have hColumn := (spells_identifier c.column).mark (c := '.') rfl
  have hBoth := (spells_identifier c.table).append hColumn (follows_cons rfl) (List.cons_ne_nil _ _)
  simp only [columnText, qualifiedColumn, String.toList_append, List.append_assoc]
  exact hBoth

section
variable {cs ds : List Char} {ts us : List Lexeme}

theorem Spells.close (h : Spells cs ts) : Spells (cs ++ [')']) (ts ++ [.mark ')']) :=
  h.append (spells_nil.mark rfl) (follows_cons rfl) (List.cons_ne_nil _ _)

theorem Spells.group (h : Spells cs ts) :
    Spells ('(' :: (cs ++ [')'])) (.mark '(' :: (ts ++ [.mark ')'])) :=
  h.close.mark rfl

theorem Spells.between {ops : List Char} {op : Lexeme} (hs : Spells cs ts) (hOp : Spells ops [op])
    (ht : Spells ds us) :
    Spells (cs ++ (' ' :: (ops ++ ' ' :: ds))) (ts ++ op :: us) := by
  have hRight := hOp.append ht.blank (follows_cons rfl) (List.cons_ne_nil _ _)
  exact hs.append hRight.blank (follows_cons rfl) (List.cons_ne_nil _ _)

theorem Spells.words (h : Spells cs ts) (w : String) (ws : List String)
    (hWords : ∀ v ∈ w :: ws, isWord v = true) :
    Spells (cs ++ (w :: ws).flatMap fun v => ' ' :: v.toList) (ts ++ (w :: ws).map .word) :=
  h.append (spells_words hWords) (follows_cons rfl) (List.cons_ne_nil _ _)

end

theorem spells_foldText {d : Dialect} {e : String} {ts : List Lexeme} (h : Spells e.toList ts) :
    Spells (d.foldText e).toList (foldLexemes d ts) := by
  cases d with
  | sqlite =>
    have hCall := (spells_word (s := "LOWER") rfl).append h.group (follows_cons rfl)
      (List.cons_ne_nil _ _)
    simp only [Dialect.foldText, String.toList_append]
    exact hCall
  | postgres =>
    have hLower := ((spells_literal (s := "abcdefghijklmnopqrstuvwxyz") (by decide)).blank).close
    have hUpper := ((spells_literal (s := "ABCDEFGHIJKLMNOPQRSTUVWXYZ") (by decide)).blank).append
      (hLower.mark (c := ',') rfl) (follows_cons rfl) (List.cons_ne_nil _ _)
    have hArguments := h.append (hUpper.mark (c := ',') rfl) (follows_cons rfl)
      (List.cons_ne_nil _ _)
    have hCall := (spells_word (s := "TRANSLATE") rfl).append (hArguments.mark (c := '(') rfl)
      (follows_cons rfl) (List.cons_ne_nil _ _)
    simp only [Dialect.foldText, String.toList_append, List.append_assoc]
    exact hCall

theorem Term.spells_text (d : Dialect) (e : Term ColumnRef) :
    Spells (e.text d columnText).toList (e.lexemes d d.position) := by
  induction e with
  | column c => exact spells_columnText c
  | parameter n => exact spells_placeholder d n
  | integer n => exact spells_number n
  | emptyText =>
    have hEmpty := spells_literal (s := "") (by decide)
    rw [text]
    exact hEmpty
  | fold e ih => exact spells_foldText ih
  | add a b iha ihb =>
    have hPlus : Spells ['+'] [.mark '+'] := spells_nil.mark rfl
    have hSum := (iha.between hPlus ihb).group
    simp only [text, String.toList_append, List.append_assoc]
    simp only [List.append_assoc, List.cons_append] at hSum
    exact hSum
  | remainder a b iha ihb =>
    have hPercent : Spells ['%'] [.mark '%'] := spells_nil.mark rfl
    have hRest := (iha.between hPercent ihb).group
    simp only [text, String.toList_append, List.append_assoc]
    simp only [List.append_assoc, List.cons_append] at hRest
    exact hRest

theorem Predicate.spells_text (d : Dialect) (p : Predicate ColumnRef) :
    Spells (p.text d columnText).toList (p.lexemes d d.position) := by
  induction p with
  | isNull e =>
    have hNull := (e.spells_text d).words "IS" ["NULL"] (by decide)
    simp only [text, String.toList_append]
    exact hNull
  | isNotNull e =>
    have hNotNull := (e.spells_text d).words "IS" ["NOT", "NULL"] (by decide)
    simp only [text, String.toList_append]
    exact hNotNull
  | compare op a b =>
    have hCompare := (a.spells_text d).between (spells_operator op) (b.spells_text d)
    simp only [text, String.toList_append, List.append_assoc]
    exact hCompare
  | like e pattern =>
    have hEscape := (pattern.spells_text d).append (spells_word (s := "ESCAPE") rfl).blank
      (follows_cons rfl) (List.cons_ne_nil _ _)
    have hPattern := hEscape.append (spells_literal (s := "\\") (by decide)).blank
      (follows_cons rfl) (List.cons_ne_nil _ _)
    have hLike := (e.spells_text d).between (spells_word (s := "LIKE") rfl) hPattern
    simp only [text, String.toList_append, List.append_assoc]
    simp only [List.append_assoc] at hLike
    exact hLike
  | not p ih =>
    have hNot := (spells_word (s := "NOT") rfl).append ih.group.blank (follows_cons rfl)
      (List.cons_ne_nil _ _)
    simp only [text, String.toList_append, List.append_assoc]
    exact hNot
  | and p q ihp ihq =>
    have hAnd := ihp.between (spells_word (s := "AND") rfl) ihq
    simp only [text, String.toList_append, List.append_assoc]
    exact hAnd
  | or p q ihp ihq =>
    have hOr := ihp.between (spells_word (s := "OR") rfl) ihq
    simp only [text, String.toList_append, List.append_assoc]
    exact hOr
  | group p ih =>
    simp only [text, String.toList_append, List.append_assoc]
    exact ih.group

end RecordFilter.Sql
