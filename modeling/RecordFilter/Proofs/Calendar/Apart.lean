import RecordFilter.Proofs.Calendar.Reading

/-!
# Patterns apart

A pattern tells how the texts that fit it begin. Two patterns are apart if, behind the items that
they begin with in common, they ask for different beginnings: no text fits both, since the common
items are read alike.
-/

namespace RecordFilter.Calendar

open Text

def firstMark (cs : List Char) : Option Char := cs.head?.map fun c => if isBlank c then ' ' else c

def numberMarks : List (Option Char) := (' ' :: "0123456789".toList).map some

def Pattern.firstMarks : Pattern → List (Option Char)
  | [] => [none]
  | .literal c :: _ => [firstMark [c]]
  | .blanks :: p => some ' ' :: firstMarks p
  | .year :: _ => some '+' :: some '-' :: numberMarks
  | .fraction :: p => some '.' :: firstMarks p
  | .offset :: _ => [some ' ', some '+', some '-', some '\u2212']
  | .month :: _ | .day :: _ | .hour :: _ | .minute :: _ | .second :: _ => numberMarks

/-- No text can begin as both patterns ask. -/
def Pattern.beginApart (p q : Pattern) : Bool := p.firstMarks.all fun c => !q.firstMarks.contains c

/-- Behind the items that they have in common, the patterns begin apart. -/
def Pattern.apart : Pattern → Pattern → Bool
  | item :: p, item' :: q =>
    if item = item' then apart p q else beginApart (item :: p) (item' :: q)
  | p, q => beginApart p q

section
variable {width n : Nat} {cs rest : List Char} {f f' g g' : Fields} {p q : Pattern}

theorem Pattern.read?_eq_some_iff : p.read? cs = some f ↔ p.scan? cs {} = some ([], f) := by
  unfold Pattern.read?
  split
  · rename_i h
    rw [h]
    simp
  · rename_i h
    exact ⟨nofun, fun hScan => absurd hScan (h f)⟩

theorem firstMark_or_trimStart (cs : List Char) : firstMark cs = some ' ' ∨ trimStart cs = cs := by
  cases cs with
  | nil => exact .inr rfl
  | cons c cs =>
    cases h : isBlank c with
    | true => exact .inl (by simp [firstMark, h])
    | false => exact .inr (trimStart_cons h cs)

theorem firstMark_of_trimStart {c : Char} (h : trimStart cs = c :: rest) :
    firstMark cs = some ' ' ∨ firstMark cs = some c := by
  rcases firstMark_or_trimStart cs with hBlank | hTrim
  · exact .inl hBlank
  · rw [← hTrim, h, firstMark, List.head?_cons, Option.map_some]
    split
    · exact .inl rfl
    · exact .inr rfl

theorem mem_numberMarks {c : Char} (h : c.isDigit = true) : some c ∈ numberMarks := by
  have hAll : ∀ k < 58, 48 ≤ k → some (Char.ofNat k) ∈ numberMarks := by decide
  obtain ⟨hLow, hHigh⟩ : 48 ≤ c.toNat ∧ c.toNat ≤ 57 := Char.isDigit_iff_toNat.mp h
  rw [← Char.ofNat_toNat c]
  exact hAll c.toNat (by omega) hLow

theorem firstMark_of_readDigits? (h : readDigits? width (trimStart cs) = some (n, rest)) :
    firstMark cs ∈ numberMarks := by
  obtain ⟨ds, hWrites, hText⟩ := exists_writes_of_readDigits? h
  obtain ⟨c, ds, rfl, hDigit⟩ := hWrites.exists_cons
  rcases firstMark_of_trimStart hText with hMark | hMark <;> rw [hMark]
  · decide
  · exact mem_numberMarks hDigit

theorem firstMark_of_readYear? {y : Int} (h : readYear? (trimStart cs) = some (y, rest)) :
    firstMark cs ∈ some '+' :: some '-' :: numberMarks := by
  unfold readYear? at h
  split at h
  · rcases firstMark_of_trimStart ‹_› with hMark | hMark <;> rw [hMark] <;> decide
  · rcases firstMark_of_trimStart ‹_› with hMark | hMark <;> rw [hMark] <;> decide
  · obtain ⟨⟨n, rest'⟩, hRead, -⟩ := Option.map_eq_some_iff.mp h
    exact List.mem_cons_of_mem _ (List.mem_cons_of_mem _ (firstMark_of_readDigits? hRead))

theorem firstMark_of_readSign? {negative : Bool}
    (h : readSign? (trimStart cs) = some (negative, rest)) :
    firstMark cs ∈ [some ' ', some '+', some '-', some '\u2212'] := by
  unfold readSign? at h
  split at h
  case h_4 => cases h
  all_goals rcases firstMark_of_trimStart ‹_› with hMark | hMark <;> rw [hMark] <;> decide

theorem Pattern.firstMark_mem (h : p.scan? cs f = some ([], f')) : firstMark cs ∈ p.firstMarks := by
  induction p generalizing cs f with
  | nil =>
    cases h
    exact List.mem_singleton_self _
  | cons item p ih =>
    obtain ⟨⟨cs', f''⟩, hItem, hScan⟩ := Option.bind_eq_some_iff.mp h
    cases item with
    | literal c =>
      cases cs with
      | nil => cases hItem
      | cons d cs =>
        obtain ⟨rfl, -⟩ := Option.ite_none_right_eq_some.mp hItem
        exact List.mem_singleton_self _
    | blanks =>
      cases hItem
      rcases firstMark_or_trimStart cs with hBlank | hTrim
      · rw [hBlank]
        exact List.mem_cons_self
      · rw [hTrim] at hScan
        exact List.mem_cons_of_mem _ (ih hScan)
    | fraction =>
      obtain ⟨⟨n, rest⟩, hRead, hRest⟩ := Option.map_eq_some_iff.mp hItem
      cases hRest
      unfold readFraction? at hRead
      split at hRead
      · exact List.mem_cons_self
      · cases hRead
        exact List.mem_cons_of_mem _ (ih hScan)
    | offset =>
      obtain ⟨_, hRead, -⟩ := Option.map_eq_some_iff.mp hItem
      obtain ⟨_, hSign, -⟩ := Option.bind_eq_some_iff.mp hRead
      exact firstMark_of_readSign? hSign
    | year =>
      obtain ⟨_, hRead, -⟩ := Option.map_eq_some_iff.mp hItem
      exact firstMark_of_readYear? hRead
    | _ =>
      obtain ⟨_, hRead, -⟩ := Option.map_eq_some_iff.mp hItem
      exact firstMark_of_readDigits? hRead

theorem Pattern.not_scan?_of_beginApart (hApart : p.beginApart q = true)
    (hp : p.scan? cs f = some ([], g)) : q.scan? cs f' ≠ some ([], g') := by
  intro hq
  have hMark := List.all_eq_true.mp hApart _ (firstMark_mem hp)
  rw [List.contains_iff_mem.mpr (firstMark_mem hq)] at hMark
  cases hMark

theorem Pattern.not_scan?_of_apart (hApart : p.apart q = true)
    (hp : p.scan? cs f = some ([], g)) : q.scan? cs f ≠ some ([], g') := by
  fun_induction apart p q generalizing cs f with
  | case1 p item q ih =>
    intro hq
    obtain ⟨⟨cs', f'⟩, hItem, hp⟩ := Option.bind_eq_some_iff.mp hp
    obtain ⟨r, hItem', hq⟩ := Option.bind_eq_some_iff.mp hq
    cases hItem.symm.trans hItem'
    exact ih hApart hp hq
  | case2 item p item' q hItem => exact not_scan?_of_beginApart hApart hp
  | case3 p q hShort => exact not_scan?_of_beginApart hApart hp

theorem Pattern.eq_of_read? {patterns : List Pattern}
    (hApart : ∀ p ∈ patterns, ∀ q ∈ patterns, p ≠ q → p.apart q = true) (hMem : p ∈ patterns)
    (hMem' : q ∈ patterns) (hp : p.read? cs = some f) (hq : q.read? cs = some f') :
    p = q ∧ f = f' := by
  have hSame : p = q := by
    refine Decidable.byContradiction fun hNe => ?_
    rw [read?_eq_some_iff] at hp hq
    exact not_scan?_of_apart (hApart p hMem q hMem' hNe) hp hq
  exact ⟨hSame, Option.some.inj ((hSame ▸ hp).symm.trans hq)⟩

/-- A text that begins with an hour and a colon has no year with another mark behind it. -/
theorem scan?_year_of_scan?_hour {c : Char} (hc : c ≠ ':') {r : List Char × Fields}
    (h : Pattern.scan? (.hour :: .literal ':' :: p) cs f = some r) :
    Pattern.scan? (.year :: .literal c :: q) cs f' = none := by
  obtain ⟨⟨cs', g⟩, hHour, h⟩ := Option.bind_eq_some_iff.mp h
  obtain ⟨⟨cs'', g'⟩, hColon, -⟩ := Option.bind_eq_some_iff.mp h
  obtain ⟨⟨hour, rest⟩, hRead, hRest⟩ := Option.map_eq_some_iff.mp hHour
  cases hRest
  cases cs' with
  | nil => cases hColon
  | cons d rest =>
    obtain ⟨rfl, -⟩ := Option.ite_none_right_eq_some.mp hColon
    obtain ⟨ds, hWrites, hText⟩ := exists_writes_of_readDigits? hRead
    have hYear : readYear? (trimStart cs) = some ((hour : Int), ':' :: rest) := by
      rw [hText]
      exact readYear?_append (.plain (hWrites.mono (by decide))) (endsDigits_cons rfl _)
    simp only [Pattern.scan?, Item.read?, hYear, if_neg (Ne.symm hc), Option.map_some,
      Option.bind_some, Option.bind_none]

end

end RecordFilter.Calendar
