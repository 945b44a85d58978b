import RecordFilter.Proofs.Sql.Printed

/-!
# The positions of placeholders

A dialect whose placeholders do not show their positions counts them as they come. Where the
parameters of an expression are numbered in the order in which they stand, that count finds the
parameter that was meant.
-/

namespace RecordFilter.Sql

variable {α : Type}

def Term.positions : Term α → List Nat
  | .column _ | .integer _ | .emptyText => []
  | .parameter n => [n]
  | .fold e => e.positions
  | .add a b | .remainder a b => a.positions ++ b.positions

def Predicate.positions : Predicate α → List Nat
  | .isNull e | .isNotNull e => e.positions
  | .compare _ a b | .like a b => a.positions ++ b.positions
  | .not p | .group p => p.positions
  | .and p q | .or p q => p.positions ++ q.positions

/-- The positions count on from `k`. -/
def CountsFrom (k : Nat) (ns : List Nat) : Prop := ns = List.range' (k + 1) ns.length

theorem countsFrom_nil (k : Nat) : CountsFrom k [] := rfl

theorem countsFrom_append {k : Nat} {ms ns : List Nat} :
    CountsFrom k (ms ++ ns) ↔ CountsFrom k ms ∧ CountsFrom (k + ms.length) ns := by
  have hSplit : List.range' (k + 1) (ms ++ ns).length =
      List.range' (k + 1) ms.length ++ List.range' (k + ms.length + 1) ns.length := by
    rw [List.length_append, ← List.range'_append_1, Nat.add_right_comm]
  rw [CountsFrom, hSplit]
  constructor
  · intro h
    exact List.append_inj h (List.length_range').symm
  · rintro ⟨hm, hn⟩
    rw [← hm, ← hn]

/-- Counting from `k` numbers the first lexemes as the second ones and takes `n` positions. -/
def Numbers (k : Nat) (ts us : List Lexeme) (n : Nat) : Prop :=
  ∀ rest, numbered k (ts ++ rest) = us ++ numbered (k + n) rest

section
variable {k m n : Nat} {ts us ts' us' : List Lexeme}

theorem Numbers.append (h : Numbers k ts us m) (h' : Numbers (k + m) ts' us' n) :
    Numbers k (ts ++ ts') (us ++ us') (m + n) := by
  intro rest
  rw [List.append_assoc, h, h', List.append_assoc, Nat.add_assoc]

theorem numbers_nil (k : Nat) : Numbers k [] [] 0 := fun _ => rfl

def Lexeme.isPlaceholder : Lexeme → Bool
  | .placeholder _ => true
  | _ => false

theorem Numbers.cons {t : Lexeme} (h : Numbers k ts us n) (ht : t.isPlaceholder = false) :
    Numbers k (t :: ts) (t :: us) n := by
  intro rest
  have hNumbered : numbered k (t :: (ts ++ rest)) = t :: numbered k (ts ++ rest) := by
    cases t with
    | placeholder position => cases ht
    | _ => rfl
  rw [List.cons_append, hNumbered, h]
  rfl

theorem Numbers.keep (h : Numbers k ts us n) (vs : List Lexeme)
    (hvs : ∀ t ∈ vs, t.isPlaceholder = false) : Numbers k (ts ++ vs) (us ++ vs) n := by
  have hEnd : Numbers (k + n) vs vs 0 := by
    induction vs with
    | nil => exact numbers_nil _
    | cons t vs ih =>
      exact (ih fun u hu => hvs u (List.mem_cons_of_mem _ hu)).cons (hvs t List.mem_cons_self)
  exact h.append hEnd

theorem numbers_placeholder (d : Dialect) (k : Nat) :
    Numbers k [.placeholder (d.position (k + 1))] [.placeholder (some (k + 1))] 1 := by
  intro rest
  cases d with
  | sqlite => rfl
  | postgres =>
    have hMax : max k (k + 1) = k + 1 := Nat.max_eq_right (Nat.le_succ k)
    change _ :: numbered (max k (k + 1)) rest = _
    rw [hMax]
    rfl

end

theorem Term.numbers (d : Dialect) {k : Nat} {e : Term ColumnRef} (h : CountsFrom k e.positions) :
    Numbers k (e.lexemes d d.position) (e.lexemes d some) e.positions.length := by
  induction e generalizing k with
  | column c => exact (numbers_nil k).keep _ (by simp [Lexeme.isPlaceholder])
  | parameter n =>
    obtain rfl : n = k + 1 := List.cons.inj h |>.1
    exact numbers_placeholder d k
  | integer n => exact (numbers_nil k).cons rfl
  | emptyText => exact (numbers_nil k).cons rfl
  | fold e ih =>
    have hEnd : ∀ t ∈ foldArguments d ++ [.mark ')'], t.isPlaceholder = false := by
      cases d <;> decide
    exact (((ih h).keep _ hEnd).cons rfl).cons rfl
  | add a b iha ihb =>
    obtain ⟨ha, hb⟩ := countsFrom_append.mp h
    have hRight := ((ihb hb).keep [.mark ')'] (by decide)).cons (t := .mark '+') rfl
    rw [positions, List.length_append]
    exact ((iha ha).append hRight).cons rfl
  | remainder a b iha ihb =>
    obtain ⟨ha, hb⟩ := countsFrom_append.mp h
    have hRight := ((ihb hb).keep [.mark ')'] (by decide)).cons (t := .mark '%') rfl
    rw [positions, List.length_append]
    exact ((iha ha).append hRight).cons rfl

theorem Predicate.numbers (d : Dialect) {k : Nat} {p : Predicate ColumnRef}
    (h : CountsFrom k p.positions) :
    Numbers k (p.lexemes d d.position) (p.lexemes d some) p.positions.length := by
  induction p generalizing k with
  | isNull e => exact (e.numbers d h).keep _ (by decide)
  | isNotNull e => exact (e.numbers d h).keep _ (by decide)
  | compare op a b =>
    obtain ⟨ha, hb⟩ := countsFrom_append.mp h
    rw [positions, List.length_append]
    exact (a.numbers d ha).append ((b.numbers d hb).cons rfl)
  | like e pattern =>
    obtain ⟨he, hPattern⟩ := countsFrom_append.mp h
    rw [positions, List.length_append]
    exact (e.numbers d he).append (((pattern.numbers d hPattern).keep _ (by decide)).cons rfl)
  | not p ih => exact (((ih h).keep [.mark ')'] (by decide)).cons rfl).cons rfl
  | and p q ihp ihq =>
    obtain ⟨hp, hq⟩ := countsFrom_append.mp h
    rw [positions, List.length_append]
    exact (ihp hp).append ((ihq hq).cons rfl)
  | or p q ihp ihq =>
    obtain ⟨hp, hq⟩ := countsFrom_append.mp h
    rw [positions, List.length_append]
    exact (ihp hp).append ((ihq hq).cons rfl)
  | group p ih => exact ((ih h).keep [.mark ')'] (by decide)).cons rfl

end RecordFilter.Sql
