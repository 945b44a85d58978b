import RecordFilter.Proofs.Json.Tokens
import RecordFilter.Proofs.Text.Digits

/-!
# Scanning printed text

The text of a value is cut into the tokens that it was printed from. Characters of a string come
back from their escapes, integers in the encoding that the reader prefers. A number ends where the
next token starts, for no other token starts like a part of a number.
-/

namespace RecordFilter

namespace Token

def Piece.ofPrinted (c : Char) : Piece :=
  if (escapeLetter? c).isNone && c.toNat < 0x20 then .unit c.toNat else .char c

theorem hexUnit?_of_lt {n : Nat} (h : n < 0x20) :
    hexUnit? '0' '0' (n / 16).digitChar (n % 16).digitChar = some n := by
  have hAll : ∀ n < 0x20, hexUnit? '0' '0' (n / 16).digitChar (n % 16).digitChar = some n := by
    decide
  exact hAll n h

theorem readPieces?_escape (c : Char) (cs : List Char) (done : List Piece) :
    readPieces? (escape c ++ cs) done = readPieces? cs (Piece.ofPrinted c :: done) := by
  cases hLetter : escapeLetter? c with
  | some e =>
    unfold escapeLetter? at hLetter
    split at hLetter <;> cases hLetter <;> rfl
  | none =>
    by_cases hControl : c.toNat < 0x20
    · have hPiece : Piece.ofPrinted c = .unit c.toNat := by
        simp [Piece.ofPrinted, hLetter, hControl]
      have hEscape : escape c =
          ['\\', 'u', '0', '0', (c.toNat / 16).digitChar, (c.toNat % 16).digitChar] := by
        simp [escape, hLetter, hControl]
      rw [hPiece, hEscape]
      simp [readPieces?, hexUnit?_of_lt hControl]
    · have hPiece : Piece.ofPrinted c = .char c := by simp [Piece.ofPrinted, hControl]
      have hEscape : escape c = [c] := by simp [escape, hLetter, hControl]
      have hQuote : c ≠ '"' := by
        rintro rfl
        cases hLetter
      have hBackslash : c ≠ '\\' := by
        rintro rfl
        cases hLetter
      rw [hPiece, hEscape, List.singleton_append, readPieces?, if_neg hControl]
      · exact hQuote
      · exact fun _ _ _ _ _ h => absurd h hBackslash
      · exact fun _ _ h => absurd h hBackslash

theorem readPieces?_quoted (cs rest : List Char) (done : List Piece) :
    readPieces? (cs.flatMap escape ++ '"' :: rest) done =
      some (done.reverse ++ cs.map Piece.ofPrinted, rest) := by
  induction cs generalizing done with
  | nil => simp [readPieces?]
  | cons c cs ih =>
    rw [List.flatMap_cons, List.append_assoc, readPieces?_escape, ih]
    simp

theorem joinPieces?_unit {u : Nat} (h : u < 0x20) (ps : List Piece) (done : List Char) :
    joinPieces? (.unit u :: ps) done = joinPieces? ps (Char.ofNat u :: done) := by
  have hHigh : isHighSurrogate u = false := by
    simp only [isHighSurrogate, Bool.and_eq_false_iff, decide_eq_false_iff_not]
    omega
  have hLow : isLowSurrogate u = false := by
    simp only [isLowSurrogate, Bool.and_eq_false_iff, decide_eq_false_iff_not]
    omega
  rcases ps with _ | ⟨c | v, ps⟩ <;> simp [joinPieces?, hHigh, hLow]

theorem joinPieces?_printed (cs done : List Char) :
    joinPieces? (cs.map Piece.ofPrinted) done = some (done.reverse ++ cs) := by
  induction cs generalizing done with
  | nil => simp [joinPieces?]
  | cons c cs ih =>
    rw [List.map_cons, Piece.ofPrinted]
    split
    · rename_i hControl
      have hControl : c.toNat < 0x20 := of_decide_eq_true (Bool.and_eq_true_iff.mp hControl).2
      rw [joinPieces?_unit hControl, ih, Char.ofNat_toNat]
      simp
    · rw [joinPieces?, ih]
      simp

theorem next?_quote (s : String) (rest : List Char) :
    next? (quote s ++ rest) = some (string (some s), rest) := by
  rw [quote, List.cons_append, List.append_assoc, List.singleton_append, next?,
    readPieces?_quoted, Option.map_some]
  simp [joinPieces?_printed]

/-- The text does not go on with what may belong to a number. -/
def EndsNumber (rest : List Char) : Prop :=
  ∀ c ∈ rest.head?, c.isDigit = false ∧ c ≠ '.' ∧ c ≠ 'e' ∧ c ≠ 'E'

theorem EndsNumber.endsDigits {rest : List Char} (h : EndsNumber rest) : Text.EndsDigits rest :=
  fun c hc => (h c hc).1

theorem readWhole?_toDigits {n : Nat} {rest : List Char} (h : Text.EndsDigits rest) :
    readWhole? (Nat.toDigits 10 n ++ rest) = some (Nat.toDigits 10 n, rest) := by
  by_cases hZero : n = 0
  · rw [hZero]
    rfl
  · have hSpan := Text.spanDigits_append_eq (@Text.isDigit_of_mem_toDigits n) h
    obtain ⟨c, cs, hDigits, -⟩ := Text.exists_toDigits_eq_cons n
    have hFirst : c ≠ '0' := by
      rintro rfl
      exact hZero (Text.eq_zero_of_toDigits_eq_cons hDigits)
    rw [hDigits, List.cons_append] at hSpan ⊢
    simp [readWhole?, hFirst, hSpan]

theorem readFraction?_of_endsNumber {rest : List Char} (h : EndsNumber rest) :
    readFraction? rest = some ([], rest) := by
  cases rest with
  | nil => rfl
  | cons c cs =>
    obtain ⟨-, hPoint, -⟩ := h c rfl
    simp [readFraction?, hPoint]

theorem readExponent?_of_endsNumber {rest : List Char} (h : EndsNumber rest) :
    readExponent? rest = some (none, rest) := by
  cases rest with
  | nil => rfl
  | cons c cs =>
    obtain ⟨-, -, hSmall, hCapital⟩ := h c rfl
    simp [readExponent?, hSmall, hCapital]

theorem readUnsigned?_toDigits {n : Nat} {rest : List Char} (negative : Bool)
    (h : EndsNumber rest) :
    readUnsigned? negative (Nat.toDigits 10 n ++ rest) =
      some (⟨negative, Nat.toDigits 10 n, [], none⟩, rest) := by
  simp [readUnsigned?, readWhole?_toDigits h.endsDigits, readFraction?_of_endsNumber h,
    readExponent?_of_endsNumber h]

theorem value?_toDigits {negative : Bool} {n : Nat} {k : Number} (hZero : negative = true → n ≠ 0)
    (h : Number.ofInteger? (if negative then -n else n) = some k) :
    (⟨negative, Nat.toDigits 10 n, [], none⟩ : NumberText).value? = some k := by
  have hValue := Text.digitsValue_toDigits n
  have hInteger : (!(negative && (n : Int) == 0)) = true := by
    cases negative with
    | false => rfl
    | true => simpa using hZero rfl
  simp [NumberText.value?, hValue, hInteger, h]

theorem next?_minus (cs : List Char) :
    next? ('-' :: cs) = (readUnsigned? true cs).map fun (t, rest) => (number t.value?, rest) := rfl

theorem next?_of_isDigit {c : Char} (hc : c.isDigit = true) (cs : List Char) :
    next? (c :: cs) =
      (readUnsigned? false (c :: cs)).map fun (t, rest) => (number t.value?, rest) := by
  have hNumber : readNumber? (c :: cs) = readUnsigned? false (c :: cs) := by
    rw [readNumber?]
    rintro ds ⟨⟩
    cases hc
  rw [← hNumber, next?]
  all_goals
    rintro _ ⟨⟩
    cases hc

theorem next?_repr {z : Int} {k : Number} (hNumber : Number.ofInteger? z = some k)
    {rest : List Char} (h : EndsNumber rest) :
    next? (z.repr.toList ++ rest) = some (number (some k), rest) := by
  rw [Int.repr_eq_if]
  split
  · rename_i hSign
    have hValue : (⟨false, Nat.toDigits 10 z.toNat, [], none⟩ : NumberText).value? = some k := by
      apply value?_toDigits
      · exact nofun
      · rwa [if_neg Bool.false_ne_true, Int.toNat_of_nonneg hSign]
    obtain ⟨c, cs, hDigits, hFirst⟩ := Text.exists_toDigits_eq_cons z.toNat
    have hNext := next?_of_isDigit hFirst (cs ++ rest)
    rw [← List.cons_append, ← hDigits, readUnsigned?_toDigits false h] at hNext
    rw [Nat.toList_repr, hNext]
    exact congrArg (fun v => some (number v, rest)) hValue
  · rename_i hSign
    have hValue : (⟨true, Nat.toDigits 10 (-z).toNat, [], none⟩ : NumberText).value? = some k := by
      apply value?_toDigits
      · intro _
        omega
      · rwa [if_pos rfl, Int.toNat_of_nonneg (by omega), Int.neg_neg]
    have hDigits : ("-" ++ (-z).toNat.repr).toList = '-' :: Nat.toDigits 10 (-z).toNat := by
      rw [String.toList_append, Nat.toList_repr]
      rfl
    rw [hDigits, List.cons_append, next?_minus, readUnsigned?_toDigits true h]
    exact congrArg (fun v => some (number v, rest)) hValue

end Token

/-- The number is an integer in the encoding in which it is read. -/
def Number.isCanonical : Number → Bool
  | int _ => true
  | nat n => 2 ^ 63 ≤ n.toNat
  | real _ => false

theorem Token.numberChars_of_isCanonical {n : Number} (h : n.isCanonical = true) :
    ∃ z : Int, numberChars n = z.repr.toList ∧ Number.ofInteger? z = some n := by
  cases n with
  | int k => exact ⟨k.toInt, rfl, Number.ofInteger?_toInt k⟩
  | nat k => exact ⟨k.toNat, rfl, Number.ofInteger?_toNat (of_decide_eq_true h)⟩
  | real x => cases h

namespace Token

/-- The token is read as it was before it was printed. -/
def isPlain : Token → Bool
  | number n => n.any Number.isCanonical
  | string s => s.isSome
  | _ => true

theorem next?_chars {t : Token} (h : t.isPlain = true) {rest : List Char}
    (hRest : t.isNumber = true → EndsNumber rest) : next? (t.chars ++ rest) = some (t, rest) := by
  cases t with
  | number n =>
    cases n with
    | none => cases h
    | some n =>
      obtain ⟨z, hChars, hNumber⟩ := numberChars_of_isCanonical h
      rw [chars, hChars, next?_repr hNumber (hRest rfl)]
  | string s =>
    cases s with
    | none => cases h
    | some s => exact next?_quote s rest
  | bool b => cases b <;> rfl
  | _ => rfl

theorem isBlank_eq_false_of_isDigit {c : Char} (h : c.isDigit = true) : isBlank c = false := by
  by_contra hBlank
  simp only [isBlank, Bool.not_eq_false, Bool.or_eq_true, decide_eq_true_eq] at hBlank
  rcases hBlank with ((rfl | rfl) | rfl) | rfl <;> cases h

theorem exists_repr_eq_cons (z : Int) :
    ∃ c cs, z.repr.toList = c :: cs ∧ isBlank c = false := by
  rw [Int.repr_eq_if]
  split
  · obtain ⟨c, cs, hDigits, hFirst⟩ := Text.exists_toDigits_eq_cons z.toNat
    rw [Nat.toList_repr]
    exact ⟨c, cs, hDigits, isBlank_eq_false_of_isDigit hFirst⟩
  · rw [String.toList_append]
    exact ⟨'-', _, rfl, rfl⟩

theorem endsNumber_cons {c : Char} (h : c.isDigit = false ∧ c ≠ '.' ∧ c ≠ 'e' ∧ c ≠ 'E')
    (rest : List Char) : EndsNumber (c :: rest) := by
  rintro d ⟨⟩
  exact h

theorem exists_chars_eq_cons {t : Token} (h : t.isPlain = true) :
    ∃ c cs, t.chars = c :: cs ∧ isBlank c = false ∧
      (t.isNumber = false → ∀ rest, EndsNumber (c :: rest)) := by
  cases t with
  | number n =>
    cases n with
    | none => cases h
    | some n =>
      obtain ⟨z, hChars, -⟩ := numberChars_of_isCanonical h
      obtain ⟨c, cs, hFirst, hBlank⟩ := exists_repr_eq_cons z
      exact ⟨c, cs, hChars.trans hFirst, hBlank, nofun⟩
  | string s =>
    cases s with
    | none => cases h
    | some s => exact ⟨_, _, rfl, rfl, fun _ => endsNumber_cons (by decide)⟩
  | bool b => cases b <;> exact ⟨_, _, rfl, rfl, fun _ => endsNumber_cons (by decide)⟩
  | _ => exact ⟨_, _, rfl, rfl, fun _ => endsNumber_cons (by decide)⟩

theorem endsNumber_flatMap_chars {t : Token} {ts : List Token}
    (hPlain : ∀ u ∈ ts, u.isPlain = true) (hChain : (t :: ts).IsChain Apart)
    (ht : t.isNumber = true) : EndsNumber (ts.flatMap chars) := by
  cases ts with
  | nil => exact nofun
  | cons u ts =>
    obtain ⟨c, cs, hChars, -, hEnds⟩ := exists_chars_eq_cons (hPlain u List.mem_cons_self)
    rw [List.flatMap_cons, hChars]
    exact hEnds (hChain.rel ht) _

theorem scan?_cons {c : Char} {cs rest : List Char} {t : Token} {done : List Token}
    (hBlank : isBlank c = false) (hNext : next? (c :: cs) = some (t, rest)) :
    scan? (c :: cs) done = scan? rest (t :: done) := by
  have hText : (c :: cs).dropWhile isBlank = c :: cs := by
    rw [List.dropWhile_cons, hBlank]
    rfl
  rw [scan?]
  simp only [hText, List.isEmpty_cons, Bool.false_eq_true, if_false]
  split
  · rename_i hRead
    rw [hText, hNext] at hRead
    cases hRead
    rfl
  · rename_i hRead
    rw [hText, hNext] at hRead
    cases hRead

theorem scan?_flatMap_chars {ts done : List Token} (hPlain : ∀ t ∈ ts, t.isPlain = true)
    (hChain : ts.IsChain Apart) : scan? (ts.flatMap chars) done = some (done.reverse ++ ts) := by
  induction ts generalizing done with
  | nil =>
    rw [List.flatMap_nil, scan?]
    simp
  | cons t ts ih =>
    have hRest : ∀ u ∈ ts, u.isPlain = true := fun u hu => hPlain u (List.mem_cons_of_mem _ hu)
    have hNext := next?_chars (hPlain t List.mem_cons_self) (endsNumber_flatMap_chars hRest hChain)
    obtain ⟨c, cs, hChars, hBlank, -⟩ := exists_chars_eq_cons (hPlain t List.mem_cons_self)
    rw [hChars, List.cons_append] at hNext
    rw [List.flatMap_cons, hChars, List.cons_append, scan?_cons hBlank hNext,
      ih hRest hChain.tail]
    simp

end Token

namespace Json

/-- All tokens of the value are read as they were before they were printed. -/
def IsPlain (j : Json) : Prop := ∀ t ∈ j.tokens, t.isPlain = true

theorem isPlain_of_mem_itemTokens {items : List Json} (h : ∀ j ∈ items, j.IsPlain) :
    ∀ t ∈ itemTokens items, t.isPlain = true := by
  induction items with
  | nil => exact fun t ht => absurd ht List.not_mem_nil
  | cons j items ih =>
    have hFirst : ∀ t ∈ j.tokens, t.isPlain = true := h j List.mem_cons_self
    have hRest := ih fun i hi => h i (List.mem_cons_of_mem _ hi)
    cases items with
    | nil => exact hFirst
    | cons i items =>
      rw [itemTokens]
      · exact List.forall_mem_append.mpr ⟨hFirst, List.forall_mem_cons.mpr ⟨rfl, hRest⟩⟩
      · exact List.cons_ne_nil _ _

theorem isPlain_array {items : List Json} (h : ∀ j ∈ items, j.IsPlain) : (array items).IsPlain := by
  rw [IsPlain, tokens, List.forall_mem_cons, List.forall_mem_append]
  exact ⟨rfl, isPlain_of_mem_itemTokens h, by simp [Token.isPlain]⟩

theorem isPlain_of_mem_memberTokens {members : List (String × Json)}
    (h : ∀ m ∈ members, m.2.IsPlain) :
    ∀ t ∈ memberTokens (members.map fun (k, v) => (some k, v)), t.isPlain = true := by
  induction members with
  | nil => exact fun t ht => absurd ht List.not_mem_nil
  | cons m members ih =>
    obtain ⟨k, j⟩ := m
    have hFirst : ∀ t ∈ j.tokens, t.isPlain = true := h _ List.mem_cons_self
    have hRest := ih fun i hi => h i (List.mem_cons_of_mem _ hi)
    cases members with
    | nil => exact List.forall_mem_cons.mpr ⟨rfl, List.forall_mem_cons.mpr ⟨rfl, hFirst⟩⟩
    | cons m members =>
      rw [List.map_cons, memberTokens]
      · refine List.forall_mem_cons.mpr ⟨rfl, List.forall_mem_cons.mpr ⟨rfl, ?_⟩⟩
        exact List.forall_mem_append.mpr ⟨hFirst, List.forall_mem_cons.mpr ⟨rfl, hRest⟩⟩
      · exact List.cons_ne_nil _ _

theorem isPlain_ofMembers {members : List (String × Json)} (h : ∀ m ∈ members, m.2.IsPlain) :
    (ofMembers members).IsPlain := by
  rw [IsPlain, ofMembers, tokens, List.forall_mem_cons, List.forall_mem_append]
  exact ⟨rfl, isPlain_of_mem_memberTokens h, by simp [Token.isPlain]⟩

theorem isPlain_of_token {j : Json} {t : Token} (hTokens : j.tokens = [t])
    (h : t.isPlain = true) : j.IsPlain := by
  rw [IsPlain, hTokens]
  exact List.forall_mem_singleton.mpr h

theorem parse?_text {j : Json} (h : j.IsPlain) : parse? j.text = some j := by
  rw [parse?, text, String.toList_ofList, Token.scan?_flatMap_chars h j.isChain_tokens]
  exact j.ofTokens?_tokens

end Json

end RecordFilter
