import RecordFilter.Proofs.Schema.Links

/-!
# Telling aliases apart

An alias spells the names of relations one after another, two underscores before each but the first.
Names that neither hold two underscores in a row nor end in one can be read back from it, so chains
of such names have different aliases.
-/

namespace RecordFilter

/-- No separator begins in the text, not even at its end. -/
def IsPlain (cs : List Char) : Prop := ¬ ['_', '_'] <:+: cs ∧ cs.getLast? ≠ some '_'

instance (cs : List Char) : Decidable (IsPlain cs) := inferInstanceAs (Decidable (_ ∧ _))

theorem IsPlain.tail {c : Char} {cs : List Char} (h : IsPlain (c :: cs)) : IsPlain cs := by
  constructor
  · intro hInfix
    exact h.1 (hInfix.trans (List.suffix_cons c cs).isInfix)
  · intro hLast
    apply h.2
    rw [List.getLast?_cons, hLast]
    rfl

theorem IsPlain.not_cons_prefix {c : Char} {cs rest : List Char} (h : IsPlain (c :: cs))
    (hRest : rest = [] ∨ ['_', '_'] <+: rest) : ¬ c :: cs <+: rest := by
  intro hPrefix
  rcases hRest with rfl | hSeparator
  · cases List.prefix_nil.mp hPrefix
  -- Two starts of one text: either the separator runs past the name, or it lies in the name.
  rcases List.prefix_or_prefix_of_prefix hPrefix hSeparator with hShort | hLong
  · obtain ⟨hFirst, hShort⟩ := List.cons_prefix_cons.mp hShort
    apply h.2
    rcases List.prefix_cons_iff.mp hShort with rfl | ⟨rest, rfl, hNil⟩
    · rw [hFirst]
      rfl
    · rw [List.prefix_nil.mp hNil]
      rfl
  · exact h.1 hLong.isInfix

/-- Where a plain name ends can be seen from what follows it. -/
theorem IsPlain.append_inj {cs ds xs ys : List Char} (hcs : IsPlain cs) (hds : IsPlain ds)
    (hxs : xs = [] ∨ ['_', '_'] <+: xs) (hys : ys = [] ∨ ['_', '_'] <+: ys)
    (h : cs ++ xs = ds ++ ys) : cs = ds ∧ xs = ys := by
  induction cs generalizing ds with
  | nil =>
    cases ds with
    | nil => exact ⟨rfl, h⟩
    | cons d ds => exact absurd ⟨ys, h.symm⟩ (hds.not_cons_prefix hxs)
  | cons c cs ih =>
    cases ds with
    | nil => exact absurd ⟨xs, h⟩ (hcs.not_cons_prefix hys)
    | cons d ds =>
      obtain ⟨rfl, hTails⟩ := List.cons.inj h
      obtain ⟨rfl, hRest⟩ := ih hcs.tail hds.tail hTails
      exact ⟨rfl, hRest⟩

def spelled (hops : List String) : List Char := hops.flatMap fun hop => '_' :: '_' :: hop.toList

theorem spelled_eq_nil_or (hops : List String) :
    spelled hops = [] ∨ ['_', '_'] <+: spelled hops := by
  cases hops with
  | nil => exact .inl rfl
  | cons hop hops => exact .inr ⟨hop.toList ++ spelled hops, rfl⟩

theorem spelled_injective {hops hops' : List String} (h : ∀ hop ∈ hops, IsPlain hop.toList)
    (h' : ∀ hop ∈ hops', IsPlain hop.toList) (hSame : spelled hops = spelled hops') :
    hops = hops' := by
  induction hops generalizing hops' with
  | nil =>
    cases hops' with
    | nil => rfl
    | cons hop hops' => cases hSame
  | cons hop hops ih =>
    cases hops' with
    | nil => cases hSame
    | cons hop' hops' =>
      have hRest : hop.toList ++ spelled hops = hop'.toList ++ spelled hops' :=
        (List.cons.inj (List.cons.inj hSame).2).2
      obtain ⟨hHop, hRest⟩ := (h hop List.mem_cons_self).append_inj (h' hop' List.mem_cons_self)
        (spelled_eq_nil_or hops) (spelled_eq_nil_or hops') hRest
      rw [String.toList_inj.mp hHop, ih (fun x hx => h x (List.mem_cons_of_mem _ hx))
        (fun x hx => h' x (List.mem_cons_of_mem _ hx)) hRest]

/-- A relation path as aliases spell it. -/
def underscored (path : String) : List Char :=
  path.toList.flatMap fun c => if c = '.' then ['_', '_'] else [c]

theorem toList_joinAlias (path : String) :
    (joinAlias path).toList = 'j' :: '_' :: underscored path := by
  simp [joinAlias, Text.replaceChar, underscored, aliasSeparator]

theorem underscored_of_notMem_dot {name : String} (h : '.' ∉ name.toList) :
    underscored name = name.toList := by
  unfold underscored
  generalize name.toList = cs at h ⊢
  induction cs with
  | nil => rfl
  | cons c cs ih =>
    obtain ⟨hc, hcs⟩ := not_or.mp (mt List.mem_cons.mpr h)
    rw [List.flatMap_cons, ih hcs, if_neg (Ne.symm hc)]
    rfl

theorem underscored_extendPath {path name : String} (hPath : path ≠ "")
    (hDot : '.' ∉ name.toList) :
    underscored (extendPath path name) = underscored path ++ '_' :: '_' :: name.toList := by
  have hEmpty : path.isEmpty = false := by simpa using hPath
  have hName := underscored_of_notMem_dot hDot
  unfold underscored at hName ⊢
  simp [extendPath, hEmpty, hName]

theorem underscored_foldl_extendPath {path : String} {hops : List String} (hPath : path ≠ "")
    (hDots : ∀ hop ∈ hops, '.' ∉ hop.toList) :
    underscored (hops.foldl extendPath path) = underscored path ++ spelled hops := by
  induction hops generalizing path with
  | nil => simp [spelled]
  | cons hop hops ih =>
    have hNext : extendPath path hop ≠ "" := by
      simp [extendPath, hPath]
    rw [List.foldl_cons, ih hNext fun x hx => hDots x (List.mem_cons_of_mem _ hx),
      underscored_extendPath hPath (hDots hop List.mem_cons_self), List.append_assoc]
    rfl

variable {κ : Type} {s : RecordSchema κ} {hops hops' : List String}

/-- The name of a relation that can be read back from an alias. -/
def IsPlainName (name : String) : Prop := name ≠ "" ∧ IsPlain name.toList

instance (name : String) : Decidable (IsPlainName name) := inferInstanceAs (Decidable (_ ∧ _))

theorem prefix_toList_joinAlias (path : String) : ['j', '_'] <+: (joinAlias path).toList := by
  rw [toList_joinAlias]
  exact ⟨underscored path, rfl⟩

namespace RecordSchema

theorem prefix_toList_aliasOf (hHops : hops ≠ []) : ['j', '_'] <+: (s.aliasOf hops).toList := by
  rw [aliasOf, if_neg (by simpa using hHops)]
  exact prefix_toList_joinAlias _

theorem aliasOf_ne_table (hTable : ¬ ['j', '_'] <+: s.table.toList) (hHops : hops ≠ []) :
    s.aliasOf hops ≠ s.table := by
  intro hTaken
  rw [← hTaken] at hTable
  exact hTable (prefix_toList_aliasOf hHops)

theorem spelled_eq_cons_aliasOf (hHops : hops ≠ []) (hNames : ∀ hop ∈ hops, hop ≠ "")
    (hDots : ∀ hop ∈ hops, '.' ∉ hop.toList) :
    spelled hops = '_' :: (s.aliasOf hops).toList.tail := by
  cases hops with
  | nil => exact absurd rfl hHops
  | cons hop hops =>
    have hFirst : extendPath "" hop = hop := rfl
    rw [aliasOf, if_neg (by simp), toList_joinAlias, List.foldl_cons, hFirst,
      underscored_foldl_extendPath (hNames hop List.mem_cons_self)
        fun x hx => hDots x (List.mem_cons_of_mem _ hx),
      underscored_of_notMem_dot (hDots hop List.mem_cons_self)]
    rfl

/-- Chains of plain names have aliases of their own, unless the base table takes one. -/
theorem aliasOf_injective (hTable : ¬ ['j', '_'] <+: s.table.toList)
    (hDots : ∀ hop ∈ hops, '.' ∉ hop.toList) (hDots' : ∀ hop ∈ hops', '.' ∉ hop.toList)
    (h : ∀ hop ∈ hops, IsPlainName hop) (h' : ∀ hop ∈ hops', IsPlainName hop)
    (hSame : s.aliasOf hops = s.aliasOf hops') : hops = hops' := by
  by_cases hHops : hops = []
  · by_cases hHops' : hops' = []
    · rw [hHops, hHops']
    · subst hHops
      exact absurd hSame.symm (aliasOf_ne_table hTable hHops')
  · by_cases hHops' : hops' = []
    · subst hHops'
      exact absurd hSame (aliasOf_ne_table hTable hHops)
    · apply spelled_injective (fun hop hx => (h hop hx).2) fun hop hx => (h' hop hx).2
      rw [spelled_eq_cons_aliasOf (s := s) hHops (fun hop hx => (h hop hx).1) hDots,
        spelled_eq_cons_aliasOf (s := s) hHops' (fun hop hx => (h' hop hx).1) hDots', hSame]

end RecordSchema

end RecordFilter
