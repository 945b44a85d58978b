import RecordFilter.Sql.Lexeme
import RecordFilter.Proofs.Text.Digits
import RecordFilter.Sql.Query

/-!
# Texts of lexemes

The text of an expression is cut into the lexemes it was put together from, whatever characters its
identifiers hold. Each piece ends where a blank or a mark follows, so pieces can be joined.
-/

namespace RecordFilter

/-- The position that a placeholder shows. -/
def Dialect.position : Dialect → Nat → Option Nat
  | sqlite, _ => none
  | postgres, n => some n

namespace Sql

/-- The characters that may follow a piece of text; none of them goes on with a lexeme. -/
def endsLexeme (c : Char) : Bool := c = ' ' || c = '(' || c = ')' || c = ',' || c = '.'

def Follows (rest : List Char) : Prop := ∀ c ∈ rest.head?, endsLexeme c = true

/-- The text is cut into the lexemes, and what follows it is cut on its own. -/
def Spells (cs : List Char) (ts : List Lexeme) : Prop :=
  ∀ rest, Follows rest → lexemes? (cs ++ rest) = (lexemes? rest).map (ts ++ ·)

theorem follows_nil : Follows [] := by
  intro c hc
  cases hc

theorem follows_cons {c : Char} {cs : List Char} (h : endsLexeme c = true) : Follows (c :: cs) := by
  intro d hd
  cases hd
  exact h

theorem follows_append {cs rest : List Char} (h : Follows cs) (hNonempty : cs ≠ []) :
    Follows (cs ++ rest) := by
  cases cs with
  | nil => exact absurd rfl hNonempty
  | cons c cs => exact follows_cons (h c rfl)

section
variable {cs ds : List Char} {ts us : List Lexeme}

theorem Spells.lexemes?_eq (h : Spells cs ts) : lexemes? cs = some ts := by
  have hEnd := h [] follows_nil
  rw [List.append_nil, lexemes?_nil] at hEnd
  rw [hEnd, Option.map_some, List.append_nil]

theorem Spells.append (hs : Spells cs ts) (ht : Spells ds us) (hFollows : Follows ds)
    (hNonempty : ds ≠ []) : Spells (cs ++ ds) (ts ++ us) := by
  intro rest hRest
  rw [List.append_assoc, hs _ (follows_append hFollows hNonempty), ht rest hRest, Option.map_map]
  refine congrArg (Option.map · (lexemes? rest)) (funext fun vs => ?_)
  exact (List.append_assoc ts us vs).symm

theorem Spells.blank (h : Spells cs ts) : Spells (' ' :: cs) ts := by
  intro rest hRest
  rw [List.cons_append, lexemes?_blank, h rest hRest]

theorem spells_nil : Spells [] [] := by
  intro rest _
  exact Option.map_id'.symm

theorem Spells.of_next {c : Char} {t : Lexeme} (hc : c ≠ ' ')
    (h : ∀ rest, Follows rest → Lexeme.next? (c :: (cs ++ rest)) = some (t, rest)) :
    Spells (c :: cs) [t] := by
  intro rest hRest
  exact lexemes?_next hc (h rest hRest)

theorem Spells.mark {c : Char} (hc : Lexeme.isMark c = true) (h : Spells cs ts) :
    Spells (c :: cs) (.mark c :: ts) := by
  intro rest hRest
  have hNext : c ≠ ' ' ∧ Lexeme.next? (c :: (cs ++ rest)) = some (.mark c, cs ++ rest) := by
    simp only [Lexeme.isMark, Bool.or_eq_true, decide_eq_true_eq] at hc
    rcases hc with (((((rfl | rfl) | rfl) | rfl) | rfl) | rfl) | rfl <;> exact ⟨by decide, rfl⟩
  rw [List.cons_append, lexemes?_next hNext.1 hNext.2, h rest hRest, Option.map_map]
  rfl

end

section
variable {p : Char → Bool} {cs rest : List Char}

theorem takeWhile_append_follows (hp : ∀ c, endsLexeme c = true → p c = false)
    (hcs : ∀ c ∈ cs, p c = true) (hRest : Follows rest) : (cs ++ rest).takeWhile p = cs := by
  rw [List.takeWhile_append_of_pos hcs]
  cases rest with
  | nil => exact List.append_nil cs
  | cons c rest => rw [List.takeWhile_cons_of_neg (by simp [hp c (hRest c rfl)]), List.append_nil]

theorem dropWhile_append_follows (hp : ∀ c, endsLexeme c = true → p c = false)
    (hcs : ∀ c ∈ cs, p c = true) (hRest : Follows rest) : (cs ++ rest).dropWhile p = rest := by
  rw [List.dropWhile_append_of_pos hcs]
  cases rest with
  | nil => rfl
  | cons c rest => exact List.dropWhile_cons_of_neg (by simp [hp c (hRest c rfl)])

theorem not_isAlpha_of_endsLexeme (c : Char) (h : endsLexeme c = true) : c.isAlpha = false := by
  simp only [endsLexeme, Bool.or_eq_true, decide_eq_true_eq] at h
  rcases h with (((rfl | rfl) | rfl) | rfl) | rfl <;> decide

theorem not_isDigit_of_endsLexeme (c : Char) (h : endsLexeme c = true) : c.isDigit = false := by
  simp only [endsLexeme, Bool.or_eq_true, decide_eq_true_eq] at h
  rcases h with (((rfl | rfl) | rfl) | rfl) | rfl <;> decide

end

/-- A character of a class without the blank and the quotes starts a lexeme that has none. -/
theorem ne_quote {p : Char → Bool} {c : Char} (h : p c = true) (hBlank : p ' ' = false)
    (hDouble : p '"' = false) (hSingle : p '\x27' = false) :
    c ≠ ' ' ∧ c ≠ '"' ∧ c ≠ '\x27' := by
  have hNe {d : Char} (hd : p d = false) : c ≠ d := by
    rintro rfl
    rw [h] at hd
    cases hd
  exact ⟨hNe hBlank, hNe hDouble, hNe hSingle⟩

def isWord (s : String) : Bool := !s.toList.isEmpty && s.toList.all Char.isAlpha

theorem spells_word {s : String} (h : isWord s = true) : Spells s.toList [.word s] := by
  obtain ⟨hNonempty, hAlpha⟩ := Bool.and_eq_true_iff.mp h
  rw [List.all_eq_true] at hAlpha
  obtain ⟨c, cs, hChars⟩ : ∃ c cs, s.toList = c :: cs := by
    cases hChars : s.toList with
    | nil =>
      rw [hChars] at hNonempty
      cases hNonempty
    | cons c cs => exact ⟨c, cs, rfl⟩
  have hWord : s = String.ofList (c :: cs) := by rw [← hChars, String.ofList_toList]
  rw [hChars] at hAlpha ⊢
  obtain ⟨hBlank, hDouble, hSingle⟩ := ne_quote (hAlpha c List.mem_cons_self) rfl rfl rfl
  apply Spells.of_next hBlank
  intro rest hRest
  have hTail : ∀ d ∈ cs, d.isAlpha = true := fun d hd => hAlpha d (List.mem_cons_of_mem _ hd)
  rw [Lexeme.next?, if_neg hDouble, if_neg hSingle, if_pos (hAlpha c List.mem_cons_self),
    takeWhile_append_follows not_isAlpha_of_endsLexeme hTail hRest,
    dropWhile_append_follows not_isAlpha_of_endsLexeme hTail hRest, hWord]

theorem spells_words {ws : List String} (h : ∀ w ∈ ws, isWord w = true) :
    Spells (ws.flatMap fun w => ' ' :: w.toList) (ws.map .word) := by
  induction ws with
  | nil => exact spells_nil
  | cons w ws ih =>
    have hWord := (spells_word (h w List.mem_cons_self)).blank
    have hWords := ih fun w hw => h w (List.mem_cons_of_mem _ hw)
    cases ws with
    | nil =>
      rw [List.flatMap_cons, List.flatMap_nil, List.append_nil]
      exact hWord
    | cons w' ws => exact hWord.append hWords (follows_cons rfl) (List.cons_ne_nil _ _)

theorem not_isAlpha_of_isDigit {c : Char} (h : c.isDigit = true) : ¬c.isAlpha = true := by
  have hDigit : c.val.toNat ≤ 57 := (Char.isDigit_iff_toNat.mp h).2
  intro hAlpha
  rcases Bool.or_eq_true_iff.mp hAlpha with hUpper | hLower
  · have hLeast : 'A'.val ≤ c.val := (of_decide_eq_true hUpper).1
    have hLetter : 65 ≤ c.val.toNat := UInt32.le_iff_toNat_le.mp hLeast
    omega
  · have hLeast : 'a'.val ≤ c.val := of_decide_eq_true (Bool.and_eq_true_iff.mp hLower).1
    have hLetter : 97 ≤ c.val.toNat := UInt32.le_iff_toNat_le.mp hLeast
    omega

theorem spells_number (n : Nat) : Spells n.repr.toList [.number n] := by
  have hDigits := @Text.isDigit_of_mem_toDigits n
  have hValue := Text.digitsValue_toDigits n
  rw [Nat.toList_repr]
  obtain ⟨c, cs, hChars⟩ := List.exists_cons_of_ne_nil (@Nat.toDigits_ne_nil n 10)
  rw [hChars] at hDigits hValue ⊢
  have hFirst := hDigits c List.mem_cons_self
  obtain ⟨hBlank, hDouble, hSingle⟩ := ne_quote hFirst rfl rfl rfl
  apply Spells.of_next hBlank
  intro rest hRest
  have hTail : ∀ d ∈ cs, d.isDigit = true := fun d hd => hDigits d (List.mem_cons_of_mem _ hd)
  rw [Lexeme.next?, if_neg hDouble, if_neg hSingle, if_neg (not_isAlpha_of_isDigit hFirst),
    if_pos hFirst,
    takeWhile_append_follows not_isDigit_of_endsLexeme hTail hRest,
    dropWhile_append_follows not_isDigit_of_endsLexeme hTail hRest, hValue]

theorem next?_placeholder {c : Char} (hc : c = '?' ∨ c = '$') {ds rest : List Char}
    (hDigits : ∀ d ∈ ds, d.isDigit = true) (hRest : Follows rest) :
    Lexeme.next? (c :: (ds ++ rest)) = some (.placeholder (Lexeme.positionOf ds), rest) := by
  have hTake := takeWhile_append_follows not_isDigit_of_endsLexeme hDigits hRest
  have hDrop := dropWhile_append_follows not_isDigit_of_endsLexeme hDigits hRest
  have hNext : Lexeme.next? (c :: (ds ++ rest)) =
      some (.placeholder (Lexeme.positionOf ((ds ++ rest).takeWhile Char.isDigit)),
        (ds ++ rest).dropWhile Char.isDigit) := by
    rcases hc with rfl | rfl <;> rfl
  rw [hNext, hTake, hDrop]

theorem spells_placeholder (d : Dialect) (n : Nat) :
    Spells (d.placeholder n).toList [.placeholder (d.position n)] := by
  cases d with
  | sqlite =>
    have hText : (Dialect.sqlite.placeholder n).toList = ['?'] := by
      rw [Dialect.placeholder]
      rfl
    have hPosition : Dialect.sqlite.position n = Lexeme.positionOf [] := rfl
    rw [hText, hPosition]
    exact .of_next (by decide) fun rest hRest => next?_placeholder (.inl rfl) nofun hRest
  | postgres =>
    have hDigits := @Text.isDigit_of_mem_toDigits n
    have hText : (Dialect.postgres.placeholder n).toList = '$' :: Nat.toDigits 10 n := by
      rw [Dialect.placeholder, String.toList_append, Nat.toList_repr]
      rfl
    have hPosition : Lexeme.positionOf (Nat.toDigits 10 n) = some n := by
      rw [Lexeme.positionOf, if_neg (by simp), Text.digitsValue_toDigits]
    rw [hText, Dialect.position, ← hPosition]
    exact .of_next (by decide) fun rest hRest => next?_placeholder (.inr rfl) hDigits hRest

/-- An operator of one character is not taken for the start of a longer one. -/
theorem readOperator?_of_follows {rest : List Char} (h : Follows rest) :
    Lexeme.readOperator? ('<' :: rest) = some (.lt, rest) ∧
      Lexeme.readOperator? ('>' :: rest) = some (.gt, rest) := by
  cases rest with
  | nil => exact ⟨rfl, rfl⟩
  | cons c rest =>
    have hc := h c rfl
    simp only [endsLexeme, Bool.or_eq_true, decide_eq_true_eq] at hc
    rcases hc with (((rfl | rfl) | rfl) | rfl) | rfl <;> exact ⟨rfl, rfl⟩

theorem spells_operator (op : Comparison) : Spells (Named.name op).toList [.operator op] := by
  cases op with
  | eq => exact .of_next (c := '=') (by decide) fun rest hRest => rfl
  | ne => exact .of_next (c := '<') (by decide) fun rest hRest => rfl
  | gt =>
    apply Spells.of_next (c := '>') (by decide)
    intro rest hRest
    exact congrArg (Option.map _) (readOperator?_of_follows hRest).2
  | ge => exact .of_next (c := '>') (by decide) fun rest hRest => rfl
  | lt =>
    apply Spells.of_next (c := '<') (by decide)
    intro rest hRest
    exact congrArg (Option.map _) (readOperator?_of_follows hRest).1
  | le => exact .of_next (c := '<') (by decide) fun rest hRest => rfl

section
variable {quote : Char} {rest : List Char}

theorem readQuoted?_of_ne {c : Char} (hc : c ≠ quote) (cs : List Char) :
    Lexeme.readQuoted? quote (c :: cs) =
      (Lexeme.readQuoted? quote cs).map fun (s, rest) => (c :: s, rest) := by
  rw [Lexeme.readQuoted?.eq_def]
  exact if_neg hc

theorem readQuoted?_twice (cs : List Char) :
    Lexeme.readQuoted? quote (quote :: quote :: cs) =
      (Lexeme.readQuoted? quote cs).map fun (s, rest) => (quote :: s, rest) := by
  rw [Lexeme.readQuoted?.eq_def]
  exact (if_pos rfl).trans (if_pos rfl)

theorem readQuoted?_last (hRest : ∀ c ∈ rest.head?, c ≠ quote) :
    Lexeme.readQuoted? quote (quote :: rest) = some ([], rest) := by
  rw [Lexeme.readQuoted?.eq_def]
  refine (if_pos rfl).trans ?_
  cases rest with
  | nil => rfl
  | cons c rest => exact if_neg (hRest c rfl)

/-- Quotes inside are written twice, and the last one is not followed by another. -/
theorem readQuoted?_escaped (cs : List Char) (hRest : ∀ c ∈ rest.head?, c ≠ quote) :
    Lexeme.readQuoted? quote
      (cs.flatMap (fun c => if c = quote then [quote, quote] else [c]) ++ quote :: rest) =
        some (cs, rest) := by
  induction cs with
  | nil => exact readQuoted?_last hRest
  | cons c cs ih =>
    rw [List.flatMap_cons, List.append_assoc]
    by_cases hc : c = quote
    · rw [if_pos hc, hc]
      exact (readQuoted?_twice _).trans (congrArg (Option.map _) ih)
    · rw [if_neg hc]
      exact (readQuoted?_of_ne hc _).trans (congrArg (Option.map _) ih)

theorem readQuoted?_plain {cs : List Char} (hcs : quote ∉ cs)
    (hRest : ∀ c ∈ rest.head?, c ≠ quote) :
    Lexeme.readQuoted? quote (cs ++ quote :: rest) = some (cs, rest) := by
  induction cs with
  | nil => exact readQuoted?_last hRest
  | cons c cs ih =>
    obtain ⟨hc, hcs⟩ := List.ne_and_not_mem_of_not_mem_cons hcs
    exact (readQuoted?_of_ne (Ne.symm hc) _).trans (congrArg (Option.map _) (ih hcs))

end

theorem ne_of_follows (quote : Char) (hQuote : endsLexeme quote = false) {rest : List Char}
    (h : Follows rest) : ∀ c ∈ rest.head?, c ≠ quote := by
  rintro c hc rfl
  rw [h c hc] at hQuote
  cases hQuote

theorem toList_quoteIdentifier (s : String) :
    (quoteIdentifier s).toList =
      '"' :: (s.toList.flatMap (fun c => if c = '"' then ['"', '"'] else [c]) ++ ['"']) := by
  simp only [quoteIdentifier, Text.replaceChar, String.toList_append, String.toList_ofList]
  rfl

theorem spells_identifier (s : String) : Spells (quoteIdentifier s).toList [.identifier s] := by
  rw [toList_quoteIdentifier]
  apply Spells.of_next (by decide)
  intro rest hRest
  have hRead := readQuoted?_escaped s.toList (ne_of_follows '"' rfl hRest)
  rw [List.append_assoc]
  refine (congrArg (Option.map _) hRead).trans ?_
  exact congrArg (fun s => some (Lexeme.identifier s, rest)) String.ofList_toList

theorem spells_literal {s : String} (hQuote : '\x27' ∉ s.toList) :
    Spells ('\x27' :: (s.toList ++ ['\x27'])) [.literal s] := by
  apply Spells.of_next (by decide)
  intro rest hRest
  have hRead := readQuoted?_plain hQuote (ne_of_follows '\x27' rfl hRest)
  rw [List.append_assoc]
  refine (congrArg (Option.map _) hRead).trans ?_
  exact congrArg (fun s => some (Lexeme.literal s, rest)) String.ofList_toList

end Sql

end RecordFilter
