import RecordFilter.Text.Blank

/-!
# Blanks at the ends of a text

A text is its trimmed part between blanks. Blanks put around a text that neither begins nor ends
with one are all that is dropped from it.
-/

namespace RecordFilter.Text

theorem isBlank_of_isDigit {c : Char} (h : c.isDigit = true) : isBlank c = false := by
  have hRange : 48 ≤ c.toNat ∧ c.toNat ≤ 57 := Char.isDigit_iff_toNat.mp h
  simp only [isBlank, Bool.or_eq_false_iff, Bool.and_eq_false_iff, decide_eq_false_iff_not,
    beq_eq_false_iff_ne]
  omega

theorem trimStart_cons {c : Char} (h : isBlank c = false) (cs : List Char) :
    trimStart (c :: cs) = c :: cs := by
  rw [trimStart, List.dropWhile_cons, h]
  rfl

theorem trim_eq_self {cs : List Char} (h : ∀ c ∈ cs, isBlank c = false) : trim cs = cs := by
  have hStart {cs : List Char} (h : ∀ c ∈ cs, isBlank c = false) : trimStart cs = cs := by
    cases cs with
    | nil => rfl
    | cons c cs => exact trimStart_cons (h c List.mem_cons_self) cs
  rw [trim, trimEnd, hStart h, hStart fun c hc => h c (List.mem_reverse.mp hc),
    List.reverse_reverse]

theorem trimEnd_append {cs ds : List Char} (hNonempty : ds ≠ [])
    (h : ∀ c ∈ ds, isBlank c = false) : trimEnd (cs ++ ds) = cs ++ ds := by
  obtain ⟨d, ds', hReverse⟩ := List.exists_cons_of_ne_nil (mt List.reverse_eq_nil_iff.mp hNonempty)
  have hLast : isBlank d = false :=
    h d (List.mem_reverse.mp (hReverse ▸ List.mem_cons_self))
  rw [trimEnd, List.reverse_append, hReverse, List.cons_append, trimStart_cons hLast,
    ← List.cons_append, ← hReverse, ← List.reverse_append, List.reverse_reverse]

theorem trim_between_blanks {before body after : List Char}
    (hBefore : ∀ c ∈ before, isBlank c = true) (hAfter : ∀ c ∈ after, isBlank c = true)
    (hStart : ∀ rest, trimStart (body ++ rest) = body ++ rest) (hEnd : trimEnd body = body) :
    trim (before ++ body ++ after) = body := by
  have hFront : trimStart (before ++ body ++ after) = body ++ after := by
    rw [List.append_assoc, trimStart, List.dropWhile_append_of_pos hBefore]
    exact hStart after
  have hBack : trimEnd (body ++ after) = trimEnd body := by
    rw [trimEnd, List.reverse_append, trimStart,
      List.dropWhile_append_of_pos fun c hc => hAfter c (List.mem_reverse.mp hc)]
    rfl
  rw [trim, hFront, hBack, hEnd]

theorem trim_between_blanks_of_ne_nil {before body after : List Char}
    (hBefore : ∀ c ∈ before, isBlank c = true) (hAfter : ∀ c ∈ after, isBlank c = true)
    (hNonempty : body ≠ []) (h : ∀ c ∈ body, isBlank c = false) :
    trim (before ++ body ++ after) = body := by
  have hEnd : trimEnd ([] ++ body) = [] ++ body := trimEnd_append hNonempty h
  refine trim_between_blanks hBefore hAfter (fun rest => ?_) hEnd
  obtain ⟨c, cs, rfl⟩ := List.exists_cons_of_ne_nil hNonempty
  exact trimStart_cons (h c List.mem_cons_self) (cs ++ rest)

theorem exists_blanks_trimStart (cs : List Char) :
    ∃ before, (∀ c ∈ before, isBlank c = true) ∧ cs = before ++ trimStart cs :=
  ⟨cs.takeWhile isBlank, List.all_eq_true.mp List.all_takeWhile,
    List.takeWhile_append_dropWhile.symm⟩

theorem exists_blanks_trimEnd (cs : List Char) :
    ∃ after, (∀ c ∈ after, isBlank c = true) ∧ cs = trimEnd cs ++ after := by
  obtain ⟨before, hBlank, hReverse⟩ := exists_blanks_trimStart cs.reverse
  refine ⟨before.reverse, fun c hc => hBlank c (List.mem_reverse.mp hc), ?_⟩
  rw [trimEnd, ← List.reverse_append, ← hReverse, List.reverse_reverse]

theorem exists_blanks_trim (cs : List Char) :
    ∃ before after, (∀ c ∈ before, isBlank c = true) ∧ (∀ c ∈ after, isBlank c = true) ∧
      cs = before ++ trim cs ++ after := by
  obtain ⟨before, hBefore, hStart⟩ := exists_blanks_trimStart cs
  obtain ⟨after, hAfter, hEnd⟩ := exists_blanks_trimEnd (trimStart cs)
  refine ⟨before, after, hBefore, hAfter, ?_⟩
  rw [List.append_assoc, trim, ← hEnd]
  exact hStart

end RecordFilter.Text
