import RecordFilter.Proofs.Memory.Sorting
import RecordFilter.Sql.Store

/-!
# Connections to a store

A connection to a database need not answer a text, but where it does, the answer is that of the
statement it reads. How tied rows are sorted is up to the database. Where joins find at most one
row, a joined row is one row of the base table over again.
-/

namespace RecordFilter.Sql

variable {τ ρ : Type}

/-- The connection answers a statement, if at all, by what it means on the store. Rows are sorted if
they can be. -/
structure Connection.Answers (c : Connection ρ) (db : Store τ ρ) : Prop where
  count : ∀ {text ps source n}, readStatement? .sqlite text = some (.count source) →
    c.count text ps = .ok n → ∃ rows, db.kept? source ps = some rows ∧ n.toInt = rows.length
  rows : ∀ {text ps whole items source order window answer},
    readStatement? .sqlite text = some (.select whole items source order window) →
    c.rows text ps = .ok answer →
    ∃ rows sorted, db.kept? source ps = some rows ∧ sorted.Perm rows ∧
      (PreorderOn (db.mayPrecede order ps) rows →
        sorted.Pairwise fun a b => db.mayPrecede order ps a b = true) ∧
      answer = (Store.cut window sorted).map (db.record whole items)

namespace Store

variable {db : Store τ ρ}

/-- The connection that reads every text is one of them. -/
theorem connection_answers (db : Store τ ρ) : db.connection.Answers db where
  count {text ps source n} hRead hCount := by
    simp only [connection, hRead] at hCount
    split at hCount
    · rename_i rows hRows
      split at hCount
      · rename_i hShort
        cases hCount
        exact ⟨rows, hRows, Int64.toInt_ofNat_of_lt hShort⟩
      · cases hCount
    · cases hCount
  rows {text ps whole items source order window answer} hRead hAnswer := by
    simp only [connection, hRead] at hAnswer
    split at hAnswer
    · rename_i rows hRows
      cases hAnswer
      exact ⟨rows, _, hRows, List.mergeSort_perm _ _, pairwise_mergeSort_of_preorderOn, rfl⟩
    · cases hAnswer

theorem joined?_eq_some {s : RowSource} {rows : List (JoinedRow τ)} (h : db.joined? s = some rows) :
    rows = db.joinRows (((db.table? s.table).getD []).map (baseRow s.table)) s.joins := by
  obtain ⟨base, hBase, h⟩ := Option.bind_eq_some_iff.mp h
  split at h
  · rw [hBase]
    exact (Option.some.inj h).symm
  · cases h

/-- Each join finds at most one row for each of the rows joined so far. -/
def JoinsOnce (db : Store τ ρ) (rows : List (JoinedRow τ)) : List JoinClause → Prop
  | [] => True
  | j :: js => (∀ row ∈ rows, (db.found j row).length ≤ 1) ∧
      db.JoinsOnce (rows.flatMap (db.leftJoin j)) js

theorem exists_leftJoin_eq {j : JoinClause} {row : JoinedRow τ} (h : (db.found j row).length ≤ 1) :
    ∃ row', db.leftJoin j row = [row'] := by
  unfold leftJoin
  match hFound : db.found j row with
  | [] => exact ⟨_, rfl⟩
  | [t] => exact ⟨_, rfl⟩
  | _ :: _ :: _ =>
    rw [hFound] at h
    simp at h

/-- What tells two rows apart in whatever way they are joined tells all joined rows apart. -/
theorem pairwise_joinRows {R : JoinedRow τ → JoinedRow τ → Prop} {rows : List (JoinedRow τ)}
    {js : List JoinClause} (hOnce : db.JoinsOnce rows js)
    (hApart : rows.Pairwise fun a b => ∀ x ∈ db.joinRows [a] js, ∀ y ∈ db.joinRows [b] js, R x y) :
    (db.joinRows rows js).Pairwise R := by
  induction js generalizing rows with
  | nil =>
    refine hApart.imp fun h => ?_
    exact h _ (List.mem_singleton_self _) _ (List.mem_singleton_self _)
  | cons j js ih =>
    obtain ⟨hFound, hOnce⟩ := hOnce
    apply ih hOnce
    rw [List.pairwise_flatMap]
    constructor
    · intro row hRow
      obtain ⟨row', hJoin⟩ := exists_leftJoin_eq (hFound row hRow)
      rw [hJoin]
      exact List.pairwise_singleton _ _
    · refine hApart.imp_of_mem ?_
      intro a b ha hb h x hx y hy x' hx' y' hy'
      have hJoined {c z : JoinedRow τ} (hc : c ∈ rows) (hz : z ∈ db.leftJoin j c) :
          db.joinRows [c] (j :: js) = db.joinRows [z] js := by
        obtain ⟨c', hJoin⟩ := exists_leftJoin_eq (hFound c hc)
        rw [hJoin] at hz
        obtain rfl := List.mem_singleton.mp hz
        rw [joinRows, List.flatMap_singleton, hJoin]
      exact h x' (hJoined ha hx ▸ hx') y' (hJoined hb hy ▸ hy')

end Store

end RecordFilter.Sql
