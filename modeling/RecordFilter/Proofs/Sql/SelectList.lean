import RecordFilter.Proofs.Sql.Printed
import RecordFilter.Sql.Statement

/-!
# Reading select lists

A select list names the base table, all of whose columns it brings, and then the columns of joined
tables, each under an output name. It is read as a database reads it, quoted names first, and what
is read is what the query was put together from, whatever characters the names hold.
-/

namespace RecordFilter.Sql

def SelectItem.lexemes (i : SelectItem) : List Lexeme :=
  columnLexemes i.column ++ [.word "AS", .identifier i.output]

theorem readItems?_lexemes (items : List SelectItem) :
    readItems? (items.flatMap fun i => .mark ',' :: i.lexemes) = some items := by
  induction items with
  | nil => rfl
  | cons i items ih =>
    rw [List.flatMap_cons]
    exact congrArg (Option.map (i :: ·)) ih

theorem SelectItem.spells_text (i : SelectItem) : Spells i.text.toList i.lexemes := by
  have hOutput := (spells_word (s := "AS") rfl).append (spells_identifier i.output).blank
    (follows_cons rfl) (List.cons_ne_nil _ _)
  have hItem := (spells_columnText i.column).append hOutput.blank (follows_cons rfl)
    (List.cons_ne_nil _ _)
  simp only [text, String.toList_append, List.append_assoc]
  exact hItem

theorem spells_items (items : List SelectItem) :
    Spells (items.flatMap fun i => ',' :: ' ' :: i.text.toList)
      (items.flatMap fun i => .mark ',' :: i.lexemes) := by
  induction items with
  | nil => exact spells_nil
  | cons i items ih =>
    have hItem := i.spells_text.blank.mark (c := ',') rfl
    rw [List.flatMap_cons, List.flatMap_cons]
    cases items with
    | nil =>
      rw [List.flatMap_nil, List.flatMap_nil, List.append_nil, List.append_nil]
      exact hItem
    | cons i' items => exact hItem.append ih (follows_cons rfl) (List.cons_ne_nil _ _)

theorem toList_intercalate_cons (first : String) (rest : List String) :
    (", ".intercalate (first :: rest)).toList =
      first.toList ++ rest.flatMap fun s => ',' :: ' ' :: s.toList := by
  induction rest generalizing first with
  | nil => rw [String.intercalate_singleton, List.flatMap_nil, List.append_nil]
  | cons second rest ih =>
    rw [String.intercalate_cons_cons, String.toList_append, String.toList_append, ih,
      List.flatMap_cons, List.append_assoc]
    rfl

def columnsLexemes (whole : String) (items : List SelectItem) : List Lexeme :=
  .identifier whole :: .mark '.' :: .mark '*' :: items.flatMap fun i => .mark ',' :: i.lexemes

theorem readColumns?_lexemes (whole : String) (items : List SelectItem) :
    readColumns? (columnsLexemes whole items) = some (whole, items) := by
  rw [columnsLexemes, readColumns?, readItems?_lexemes, Option.map_some]

theorem Query.spells_selectText (q : Query) :
    Spells q.selectText.toList (columnsLexemes q.table q.items) := by
  have hStar := ((spells_items q.items).mark (c := '*') rfl).mark (c := '.') rfl
  have hList := (spells_identifier q.table).append hStar (follows_cons rfl) (List.cons_ne_nil _ _)
  have hText : q.selectText.toList = (quoteIdentifier q.table).toList ++
      '.' :: '*' :: q.items.flatMap fun i => ',' :: ' ' :: i.text.toList := by
    rw [selectText, toList_intercalate_cons, String.toList_append, tableText, List.flatMap_map,
      List.append_assoc]
    rfl
  rw [hText]
  exact hList

theorem Query.readSelect?_selectText (q : Query) :
    readSelect? q.selectText = some (q.table, q.items) := by
  rw [readSelect?, q.spells_selectText.lexemes?_eq, Option.bind_some, readColumns?_lexemes]

end RecordFilter.Sql
