import RecordFilter.Proofs.Sql.Printed
import RecordFilter.Sql.Evaluate

/-!
# Reading printed expressions

The lexemes of a term or predicate are read as that expression, however much text follows, as long
as it does not go on at the level of the expression. Parentheses are where they are needed: a
predicate whose junctions are grouped well is read as it stands, but for its parentheses.
-/

namespace RecordFilter.Sql

theorem after?_append (expected ts : List Lexeme) : after? expected (expected ++ ts) = some ts := by
  induction expected with
  | nil => rfl
  | cons t expected ih => exact (if_pos (beq_self_eq_true t)).trans ih

theorem after?_of_head {t : Lexeme} {ts : List Lexeme} (h : ∀ u ∈ ts.head?, u ≠ t) :
    after? [t] ts = none := by
  cases ts with
  | nil => rfl
  | cons u ts => exact if_neg fun hEq => h u rfl (beq_iff_eq.mp hEq).symm

namespace Level

def height : Level → Nat
  | primary => 0
  | product => 1
  | sum => 2
  | comparison => 3
  | negation => 4
  | conjunction => 5
  | disjunction => 6

def up : Level → Level
  | primary => product
  | product => sum
  | sum => comparison
  | comparison => negation
  | negation => conjunction
  | conjunction | disjunction => disjunction

theorem height_le_height_up (level : Level) : level.height ≤ level.up.height := by
  cases level <;> decide

theorem height_inj {l m : Level} (h : l.height = m.height) : l = m := by
  cases l <;> cases m <;> first | rfl | cases h

theorem height_up_of_lt {l m : Level} (h : l.height < m.height) : l.up.height = l.height + 1 := by
  cases l with
  | disjunction =>
    have hBound : m.height ≤ 6 := by cases m <;> decide
    exact absurd h (Nat.not_lt.mpr hBound)
  | _ => rfl

end Level

/-- The height of the tightest level that goes on with the lexeme. -/
def Lexeme.height : Lexeme → Nat
  | .mark c => if c = '%' then 1 else if c = '+' then 2 else 7
  | .operator _ => 3
  | .word w => if w = "IS" || w = "LIKE" then 3 else if w = "AND" then 5
      else if w = "OR" then 6 else 7
  | _ => 7

/-- The lexemes that follow do not go on with a phrase of the level. -/
def Stops (level : Level) (rest : List Lexeme) : Prop := ∀ t ∈ rest.head?, level.height < t.height

theorem stops_cons {level : Level} {t : Lexeme} {rest : List Lexeme}
    (h : level.height < t.height) : Stops level (t :: rest) := by
  intro u hu
  cases hu
  exact h

theorem stops_nil (level : Level) : Stops level [] := by
  intro t ht
  cases ht

theorem Stops.ne {level : Level} {rest : List Lexeme} (h : Stops level rest) {t : Lexeme}
    (ht : t.height ≤ level.height) : ∀ u ∈ rest.head?, u ≠ t := by
  rintro u hu rfl
  exact absurd (h u hu) (Nat.not_lt.mpr ht)

theorem Stops.tighter {loose tight : Level} {rest : List Lexeme} (h : Stops loose rest)
    (hHeight : tight.height ≤ loose.height) : Stops tight rest :=
  fun t ht => Nat.lt_of_le_of_lt hHeight (h t ht)

/-- The lexemes are read as the phrase, whatever follows that does not go on with it. -/
def Reads (d : Dialect) (level : Level) (ts : List Lexeme) (x : Phrase) : Prop :=
  ∀ n rest, 8 * ts.length + level.height < n → Stops level rest →
    read d n level (ts ++ rest) = some (x, rest)

/-- The lexemes do not start with a negation. -/
def StartsPlain (ts : List Lexeme) : Prop := ∃ t us, ts = t :: us ∧ t ≠ .word "NOT"

section
variable {d : Dialect} {level : Level} {ts us : List Lexeme} {x a b : Phrase}
variable {op : Lexeme} {combine : Phrase → Phrase → Option Phrase} {left right : Reader}
variable {rest : List Lexeme}

theorem Reads.of_succ (h : ∀ n rest, 8 * ts.length + level.height ≤ n → Stops level rest →
    read d (n + 1) level (ts ++ rest) = some (x, rest)) : Reads d level ts x := by
  intro n rest hn hRest
  obtain ⟨n, rfl⟩ := Nat.exists_eq_add_one_of_ne_zero (Nat.ne_zero_of_lt hn)
  exact h n rest (Nat.le_of_lt_succ hn) hRest

theorem readBinary_one (hLeft : left ts = some (a, rest)) (hRest : ∀ t ∈ rest.head?, t ≠ op) :
    readBinary op combine left right ts = some (a, rest) := by
  simp only [readBinary, hLeft, Option.bind_eq_bind, Option.bind_some, after?_of_head hRest]
  rfl

theorem readBinary_two (hLeft : left ts = some (a, op :: us)) (hRight : right us = some (b, rest))
    (hCombine : combine a b = some x) :
    readBinary op combine left right ts = some (x, rest) := by
  have hAfter : after? [op] (op :: us) = some us := after?_append [op] us
  simp only [readBinary, hLeft, Option.bind_eq_bind, Option.bind_some, hAfter, hRight, hCombine]
  rfl

theorem readComparison_one {operand : Reader} (hOperand : operand ts = some (a, rest))
    (hRest : Stops .comparison rest) : readComparison operand ts = some (a, rest) := by
  simp only [readComparison, hOperand, Option.bind_eq_bind, Option.bind_some]
  cases rest with
  | nil => rfl
  | cons t rest =>
    have ht := hRest t rfl
    cases t with
    | operator op => exact absurd ht (Nat.lt_irrefl 3)
    | word w =>
      have hIs : w ≠ "IS" := by
        rintro rfl
        exact absurd ht (by decide)
      have hLike : w ≠ "LIKE" := by
        rintro rfl
        exact absurd ht (by decide)
      simp only [if_neg hIs, if_neg hLike]
      rfl
    | _ => rfl

theorem Reads.up (h : Reads d level ts x) (hStart : level = .comparison → StartsPlain ts) :
    Reads d level.up ts x := by
  intro n rest hn hRest
  have hTighter (hLevel : level ≠ .disjunction) : ∃ k, n = k + 1 ∧
      read d k level (ts ++ rest) = some (x, rest) := by
    have hHeight : level.up.height = level.height + 1 := by
      cases level with
      | disjunction => exact absurd rfl hLevel
      | _ => rfl
    exact ⟨n - 1, by omega, h (n - 1) rest (by omega) (hRest.tighter level.height_le_height_up)⟩
  cases level with
  | disjunction => exact h n rest hn hRest
  | comparison =>
    obtain ⟨k, rfl, hRead⟩ := hTighter nofun
    obtain ⟨t, us, rfl, ht⟩ := hStart rfl
    have hNot : after? [.word "NOT"] (t :: us ++ rest) = none := by
      apply after?_of_head
      intro u hu
      cases hu
      exact ht
    change readNegation _ _ _ = _
    simp only [readNegation, hNot]
    exact hRead
  | sum =>
    obtain ⟨k, rfl, hRead⟩ := hTighter nofun
    exact readComparison_one hRead hRest
  | _ =>
    obtain ⟨k, rfl, hRead⟩ := hTighter nofun
    exact readBinary_one hRead (hRest.ne (by decide))

theorem Reads.binary {l r : Level} (ha : Reads d l ts a) (hb : Reads d r us b)
    (hRead : ∀ n, read d (n + 1) level = readBinary op combine (read d n l) (read d n r))
    (hCombine : combine a b = some x) (hOp : l.height < op.height)
    (hLeft : l.height ≤ level.height) (hRight : r.height ≤ level.height) :
    Reads d level (ts ++ op :: us) x := by
  apply Reads.of_succ
  intro n rest hn hRest
  rw [List.length_append, List.length_cons] at hn
  have hFirst := ha n (op :: (us ++ rest)) (by omega) (stops_cons hOp)
  have hSecond := hb n rest (by omega) (hRest.tighter hRight)
  rw [hRead, List.append_assoc]
  exact readBinary_two hFirst hSecond hCombine

/-- What is read at one level is read at all looser ones. -/
theorem Reads.climb {l m : Level} (h : Reads d l ts x) (hHeight : l.height ≤ m.height)
    (hStart : l.height ≤ Level.comparison.height → StartsPlain ts) : Reads d m ts x := by
  induction hGap : m.height - l.height generalizing l with
  | zero =>
    have hEq : l = m := Level.height_inj (by omega)
    exact hEq ▸ h
  | succ gap ih =>
    have hLt : l.height < m.height := by omega
    have hUp : l.up.height = l.height + 1 := Level.height_up_of_lt hLt
    refine ih (h.up fun hLevel => hStart (Nat.le_of_eq (congrArg _ hLevel))) (by omega) ?_ (by omega)
    intro hTight
    exact hStart (by omega)

theorem Reads.loosest {l : Level} (h : Reads d l ts x)
    (hStart : l.height ≤ Level.comparison.height → StartsPlain ts) : Reads d .disjunction ts x :=
  h.climb (by cases l <;> decide) hStart

theorem Reads.group (h : Reads d .disjunction ts x) :
    Reads d .primary (.mark '(' :: (ts ++ [.mark ')'])) x := by
  apply Reads.of_succ
  intro n rest hn _
  have hRead := h n (.mark ')' :: rest)
    (by simp only [Level.height, List.length_cons, List.length_append] at hn ⊢; omega)
    (stops_cons (by decide))
  have hClose : after? [.mark ')'] (.mark ')' :: rest) = some rest := after?_append [.mark ')'] rest
  rw [List.cons_append, List.append_assoc]
  change readGroup _ _ = _
  simp only [readGroup, List.cons_append, List.nil_append, hRead, Option.bind_eq_bind,
    Option.bind_some, hClose]
  rfl

theorem Reads.fold {e : Term ColumnRef} (h : Reads d .disjunction ts (.term e)) :
    Reads d .primary (foldLexemes d ts) (.term (.fold e)) := by
  apply Reads.of_succ
  intro n rest hn _
  have hStops : Stops .disjunction (foldArguments d ++ [.mark ')'] ++ rest) := by
    cases d <;> exact stops_cons (by decide)
  have hRead := h n (foldArguments d ++ [.mark ')'] ++ rest)
    (by simp only [Level.height, foldLexemes, List.length_cons, List.length_append] at hn ⊢; omega)
    hStops
  have hOpen : after? [.mark '('] (.mark '(' :: (ts ++ (foldArguments d ++ [.mark ')'] ++ rest))) =
      some (ts ++ (foldArguments d ++ [.mark ')'] ++ rest)) := after?_append [.mark '('] _
  have hClose := after?_append (foldArguments d ++ [.mark ')']) rest
  rw [foldLexemes, List.cons_append, List.cons_append, List.append_assoc]
  refine (if_pos rfl).trans ?_
  simp only [readFold, hOpen, hRead, Option.bind_eq_bind, Option.bind_some, hClose]
  rfl

end

theorem startsPlain_lexemes (d : Dialect) (position : Nat → Option Nat) (e : Term ColumnRef) :
    StartsPlain (e.lexemes d position) := by
  cases e with
  | fold e => cases d <;> exact ⟨_, _, rfl, by decide⟩
  | _ => exact ⟨_, _, rfl, nofun⟩

theorem StartsPlain.append {ts : List Lexeme} (h : StartsPlain ts) (us : List Lexeme) :
    StartsPlain (ts ++ us) := by
  obtain ⟨t, ts, rfl, ht⟩ := h
  exact ⟨t, ts ++ us, rfl, ht⟩

theorem Term.reads (d : Dialect) (e : Term ColumnRef) :
    Reads d .primary (e.lexemes d some) (.term e) := by
  induction e with
  | fold e ih => exact (ih.loosest fun _ => startsPlain_lexemes d some e).fold
  | add a b iha ihb =>
    have ha : Reads d .product (a.lexemes d some) (.term a) := iha.up nofun
    have hb : Reads d .product (b.lexemes d some) (.term b) := ihb.up nofun
    have hSum : Reads d .sum (a.lexemes d some ++ .mark '+' :: b.lexemes d some)
        (.term (.add a b)) :=
      ha.binary hb (fun _ => rfl) rfl (by decide) (by decide) (by decide)
    have hGroup := (hSum.loosest fun _ => (startsPlain_lexemes d some a).append _).group
    rw [List.append_assoc] at hGroup
    exact hGroup
  | remainder a b iha ihb =>
    have hProduct : Reads d .product (a.lexemes d some ++ .mark '%' :: b.lexemes d some)
        (.term (.remainder a b)) :=
      iha.binary ihb (fun _ => rfl) rfl (by decide) (by decide) (by decide)
    have hGroup := (hProduct.loosest fun _ => (startsPlain_lexemes d some a).append _).group
    rw [List.append_assoc] at hGroup
    exact hGroup
  | _ => exact .of_succ fun n rest _ _ => rfl

theorem Reads.negation {d : Dialect} {ts : List Lexeme} {p : Predicate ColumnRef}
    (h : Reads d .negation ts (.predicate p)) :
    Reads d .negation (.word "NOT" :: ts) (.predicate (.not p)) := by
  apply Reads.of_succ
  intro n rest hn hRest
  rw [List.length_cons] at hn
  have hRead := h n rest (by omega) hRest
  have hNot : after? [.word "NOT"] (.word "NOT" :: (ts ++ rest)) = some (ts ++ rest) :=
    after?_append [.word "NOT"] _
  change readNegation _ _ (.word "NOT" :: (ts ++ rest)) = _
  simp only [readNegation, hNot, hRead, Option.bind_eq_bind, Option.bind_some]
  rfl

section
variable {operand : Reader} {ts us rest : List Lexeme} {a b : Term ColumnRef}

theorem readComparison_isNull
    (h : operand ts = some (.term a, .word "IS" :: .word "NULL" :: rest)) :
    readComparison operand ts = some (.predicate (.isNull a), rest) := by
  simp only [readComparison, h, Option.bind_eq_bind, Option.bind_some]
  rfl

theorem readComparison_isNotNull
    (h : operand ts = some (.term a, .word "IS" :: .word "NOT" :: .word "NULL" :: rest)) :
    readComparison operand ts = some (.predicate (.isNotNull a), rest) := by
  simp only [readComparison, h, Option.bind_eq_bind, Option.bind_some]
  rfl

theorem readComparison_compare {op : Comparison}
    (ha : operand ts = some (.term a, .operator op :: us))
    (hb : operand us = some (.term b, rest)) :
    readComparison operand ts = some (.predicate (.compare op a b), rest) := by
  simp only [readComparison, ha, hb, Option.bind_eq_bind, Option.bind_some]
  rfl

theorem readComparison_like (ha : operand ts = some (.term a, .word "LIKE" :: us))
    (hb : operand us = some (.term b, .word "ESCAPE" :: .literal "\\" :: rest)) :
    readComparison operand ts = some (.predicate (.like a b), rest) := by
  simp only [readComparison, ha, Option.bind_eq_bind, Option.bind_some]
  change readPattern _ operand us = _
  simp only [readPattern, hb, Option.bind_eq_bind, Option.bind_some]
  rfl

end

namespace Predicate

variable {α : Type}

def level : Predicate α → Level
  | .isNull _ | .isNotNull _ | .compare .. | .like .. => .comparison
  | .not _ => .negation
  | .and .. => .conjunction
  | .or .. => .disjunction
  | .group _ => .primary

/-- Whether junctions are grouped so that no operator takes a part of another's operand. -/
def wellGrouped : Predicate α → Bool
  | .isNull _ | .isNotNull _ | .compare .. | .like .. => true
  | .not p | .group p => p.wellGrouped
  | .and p q => p.level.height ≤ Level.negation.height && q.level.height ≤ Level.conjunction.height &&
      (p.wellGrouped && q.wellGrouped)
  | .or p q => p.level.height ≤ Level.conjunction.height && (p.wellGrouped && q.wellGrouped)

def ungrouped : Predicate α → Predicate α
  | .not p => .not p.ungrouped
  | .and p q => .and p.ungrouped q.ungrouped
  | .or p q => .or p.ungrouped q.ungrouped
  | .group p => p.ungrouped
  | p => p

theorem eval_ungrouped (row : α → StoredValue) (ps : Parameters) (p : Predicate α) :
    p.ungrouped.eval row ps = p.eval row ps := by
  induction p with
  | not p ih => rw [ungrouped, eval, eval, ih]
  | and p q ihp ihq => rw [ungrouped, eval, eval, ihp, ihq]
  | or p q ihp ihq => rw [ungrouped, eval, eval, ihp, ihq]
  | group p ih => exact ih
  | _ => rfl

theorem startsPlain_lexemes_of_level (d : Dialect) {p : Predicate ColumnRef}
    (h : p.level.height ≤ Level.comparison.height) : StartsPlain (p.lexemes d some) := by
  cases p with
  | isNull e => exact (startsPlain_lexemes d some e).append _
  | isNotNull e => exact (startsPlain_lexemes d some e).append _
  | compare op a b => exact (startsPlain_lexemes d some a).append _
  | like e pattern => exact (startsPlain_lexemes d some e).append _
  | group p => exact ⟨_, _, rfl, nofun⟩
  | not p => exact absurd h (Nat.not_succ_le_self 3)
  | and p q => exact absurd h (by simp [level, Level.height])
  | or p q => exact absurd h (by simp [level, Level.height])

theorem reads_sum (d : Dialect) (e : Term ColumnRef) :
    Reads d .sum (e.lexemes d some) (.term e) :=
  ((e.reads d).up nofun).up nofun

theorem reads (d : Dialect) {p : Predicate ColumnRef} (h : p.wellGrouped = true) :
    Reads d p.level (p.lexemes d some) (.predicate p.ungrouped) := by
  induction p with
  | isNull e =>
    apply Reads.of_succ
    intro n rest hn _
    rw [lexemes, List.length_append] at hn
    have hRead := reads_sum d e n (.word "IS" :: .word "NULL" :: rest)
      (by simp only [level, Level.height] at hn ⊢; omega) (stops_cons (by decide))
    rw [lexemes, List.append_assoc]
    exact readComparison_isNull hRead
  | isNotNull e =>
    apply Reads.of_succ
    intro n rest hn _
    rw [lexemes, List.length_append] at hn
    have hRead := reads_sum d e n (.word "IS" :: .word "NOT" :: .word "NULL" :: rest)
      (by simp only [level, Level.height] at hn ⊢; omega) (stops_cons (by decide))
    rw [lexemes, List.append_assoc]
    exact readComparison_isNotNull hRead
  | compare op a b =>
    apply Reads.of_succ
    intro n rest hn hRest
    rw [lexemes, List.length_append, List.length_cons] at hn
    simp only [level, Level.height] at hn
    have hLeft := reads_sum d a n (.operator op :: (b.lexemes d some ++ rest))
      (by simp only [Level.height]; omega) (stops_cons (Nat.lt_succ_self 2))
    have hRight := reads_sum d b n rest (by simp only [Level.height]; omega)
      (hRest.tighter (Nat.le_succ 2))
    rw [lexemes, List.append_assoc]
    exact readComparison_compare hLeft hRight
  | like e pattern =>
    apply Reads.of_succ
    intro n rest hn _
    rw [lexemes, List.length_append, List.length_cons, List.length_append] at hn
    simp only [level, Level.height] at hn
    have hPattern := reads_sum d pattern n (.word "ESCAPE" :: .literal "\\" :: rest)
      (by simp only [Level.height]; omega) (stops_cons (by decide))
    have hText := reads_sum d e n (.word "LIKE" :: (pattern.lexemes d some ++
      .word "ESCAPE" :: .literal "\\" :: rest)) (by simp only [Level.height]; omega)
      (stops_cons (by decide))
    rw [lexemes, List.append_assoc, List.cons_append, List.append_assoc]
    exact readComparison_like hText hPattern
  | not p ih =>
    have hGroup := ((ih h).loosest (startsPlain_lexemes_of_level d)).group
    exact (hGroup.climb (by decide) fun _ => ⟨_, _, rfl, nofun⟩).negation
  | and p q ihp ihq =>
    simp only [wellGrouped, Bool.and_eq_true, decide_eq_true_eq] at h
    obtain ⟨⟨hLeft, hRight⟩, hp, hq⟩ := h
    exact ((ihp hp).climb hLeft (startsPlain_lexemes_of_level d)).binary
      ((ihq hq).climb hRight (startsPlain_lexemes_of_level d)) (fun _ => rfl) rfl (by decide)
      (Nat.le_succ 4) (Nat.le_refl 5)
  | or p q ihp ihq =>
    simp only [wellGrouped, Bool.and_eq_true, decide_eq_true_eq] at h
    obtain ⟨hLeft, hp, hq⟩ := h
    have hRight : q.level.height ≤ Level.disjunction.height := by cases q.level <;> decide
    exact ((ihp hp).climb hLeft (startsPlain_lexemes_of_level d)).binary
      ((ihq hq).climb hRight (startsPlain_lexemes_of_level d)) (fun _ => rfl) rfl (by decide)
      (Nat.le_succ 5) (Nat.le_refl 6)
  | group p ih =>
    exact ((ih h).loosest (startsPlain_lexemes_of_level d)).group

end Predicate

end RecordFilter.Sql
