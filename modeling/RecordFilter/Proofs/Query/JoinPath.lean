import Mathlib.Data.List.Nodup
import RecordFilter.Proofs.Schema.Aliases
import RecordFilter.Query.Compile

/-!
# Following joins

Of several joins of one alias the first is kept. The kept joins can be followed, each to its parent,
down to the base table. That passes the links which a chain of relations is declared to follow as
soon as chains of one alias are declared to follow the same links, and only then.
-/

namespace RecordFilter

variable {κ : Type}

theorem mem_of_mem_newJoins {seen : List String} {joins : List (JoinSpec κ)} {j : JoinSpec κ}
    (h : j ∈ newJoins seen joins) : j ∈ joins := by
  induction joins generalizing seen with
  | nil => exact h
  | cons k joins ih =>
    rw [newJoins] at h
    split at h
    · exact List.mem_cons_of_mem _ (ih h)
    · rcases List.mem_cons.mp h with rfl | h
      · exact List.mem_cons_self
      · exact List.mem_cons_of_mem _ (ih h)

theorem exists_mem_newJoins {joins : List (JoinSpec κ)} {j : JoinSpec κ} (h : j ∈ joins)
    (seen : List String) :
    j.tableAlias ∈ seen ∨ ∃ k ∈ newJoins seen joins, k.tableAlias = j.tableAlias := by
  induction joins generalizing seen with
  | nil => cases h
  | cons k joins ih =>
    rw [newJoins]
    rcases List.mem_cons.mp h with rfl | h
    · split
      · rename_i hSeen
        exact .inl (List.contains_iff_mem.mp hSeen)
      · exact .inr ⟨j, List.mem_cons_self, rfl⟩
    · split
      · exact ih h seen
      · rcases ih h (k.tableAlias :: seen) with hSeen | ⟨i, hi, hAlias⟩
        · rcases List.mem_cons.mp hSeen with hAlias | hSeen
          · exact .inr ⟨k, List.mem_cons_self, hAlias.symm⟩
          · exact .inl hSeen
        · exact .inr ⟨i, List.mem_cons_of_mem _ hi, hAlias⟩

theorem newJoins_prefix_append (seen : List String) (joins more : List (JoinSpec κ)) :
    newJoins seen joins <+: newJoins seen (joins ++ more) := by
  induction joins generalizing seen with
  | nil => exact List.nil_prefix
  | cons k joins ih =>
    rw [List.cons_append, newJoins, newJoins]
    split
    · exact ih seen
    · exact List.cons_prefix_cons.mpr ⟨rfl, ih _⟩

theorem exists_kept_join {joins : List (JoinSpec κ)} {j : JoinSpec κ} (h : j ∈ joins)
    (more : List (JoinSpec κ)) :
    ∃ k ∈ joins, k ∈ distinctJoins (joins ++ more) ∧ k.tableAlias = j.tableAlias := by
  obtain hSeen | ⟨k, hk, hAlias⟩ := exists_mem_newJoins h []
  · cases hSeen
  · exact ⟨k, mem_of_mem_newJoins hk, (newJoins_prefix_append [] joins more).subset hk, hAlias⟩

namespace CompiledQuery

variable (catalog : Catalog κ) (q : CompiledQuery κ)

def fields : List (ResolvedField κ) := q.filters.map (·.field) ++ q.sort.map (·.field)

/-- From the table called `name`, parents lead down to the base table over the links. -/
inductive JoinPath : String → List Link → Prop
  | base : JoinPath q.schema.table []
  | join {j : JoinSpec κ} {links : List Link} : j ∈ q.joins → j.tableAlias ≠ q.schema.table →
      JoinPath j.parentAlias links → JoinPath j.tableAlias (links ++ [j.link])

/-- A field reads off the end of the chain of relations or of one that goes on from there. -/
def Uses (hops : List String) : Prop := ∃ f ∈ q.fields, hops <+: f.hops

/-- Chains that are called alike are declared to follow the same links. -/
def Unambiguous : Prop := ∀ hops hops', q.Uses hops → q.Uses hops' →
  q.schema.aliasOf hops = q.schema.aliasOf hops' →
  q.schema.linksOf? catalog hops = q.schema.linksOf? catalog hops'

/-- The joins of the query are those of its fields, as far as their aliases go. -/
structure JoinsFields : Prop where
  nodup : (q.joins.map (·.tableAlias)).Nodup
  follows : ∀ f ∈ q.fields, f.Follows catalog q.schema
  exists_join : ∀ f ∈ q.fields, ∀ j ∈ f.joins, ∃ g ∈ q.fields, ∃ k ∈ g.joins,
    k ∈ q.joins ∧ k.tableAlias = j.tableAlias

variable {catalog q}

theorem JoinPath.exists_mem {name : String} {links : List Link} {link : Link}
    (h : q.JoinPath name links) (hLast : links.getLast? = some link) :
    ∃ j ∈ q.joins, j.tableAlias = name ∧ j.link = link := by
  cases h with
  | base => cases hLast
  | join hj _ _ =>
    rw [List.getLast?_concat] at hLast
    exact ⟨_, hj, rfl, Option.some.inj hLast⟩

theorem JoinPath.unique (hNodup : (q.joins.map (·.tableAlias)).Nodup) {name : String}
    {links links' : List Link} (h : q.JoinPath name links) (h' : q.JoinPath name links') :
    links = links' := by
  induction h generalizing links' with
  | base =>
    generalize hName : q.schema.table = name at h'
    cases h' with
    | base => rfl
    | join _ hApart _ => exact absurd hName.symm hApart
  | @join j links hj hApart hPath ih =>
    generalize hName : j.tableAlias = name at h'
    cases h' with
    | base => exact absurd hName hApart
    | @join k links' hk _ hPath' =>
      obtain rfl := List.inj_on_of_nodup_map hNodup hj hk hName
      rw [ih hPath']

theorem Uses.of_concat {hops : List String} {hop : String} (h : q.Uses (hops ++ [hop])) :
    q.Uses hops := by
  obtain ⟨f, hf, hPrefix⟩ := h
  exact ⟨f, hf, (List.prefix_append hops [hop]).trans hPrefix⟩

theorem Uses.nil {hops : List String} (h : q.Uses hops) : q.Uses [] := by
  obtain ⟨f, hf, -⟩ := h
  exact ⟨f, hf, List.nil_prefix⟩

/-- The last relation of a chain has a join. The join kept for its alias may be of another chain. -/
theorem Uses.exists_kept_join (h : q.JoinsFields catalog) {hops : List String} {hop : String}
    (hUses : q.Uses (hops ++ [hop])) :
    ∃ j : JoinSpec κ, j.Extends catalog q.schema hops hop ∧
      ∃ hops' hop', q.Uses (hops' ++ [hop']) ∧
        ∃ k ∈ q.joins, k.Extends catalog q.schema hops' hop' ∧ k.tableAlias = j.tableAlias := by
  obtain ⟨f, hf, hPrefix⟩ := hUses
  obtain ⟨j, hj, hExtends⟩ := (h.follows f hf).exists_join hops hop hPrefix
  obtain ⟨g, hg, k, hk, hKept, hAlias⟩ := h.exists_join f hf j hj
  obtain ⟨hops', hop', hPrefix', hExtends'⟩ := (h.follows g hg).extends_of_mem k hk
  exact ⟨j, hExtends, hops', hop', ⟨g, hg, hPrefix'⟩, k, hKept, hExtends', hAlias⟩

/-- The join kept for the alias of a chain follows the last link of the chain, and hangs on the
table of a chain over the links before it. -/
theorem Uses.exists_parent (h : q.JoinsFields catalog) (hClear : q.Unambiguous catalog)
    {hops : List String} {hop : String} (hUses : q.Uses (hops ++ [hop])) :
    ∃ k ∈ q.joins, k.tableAlias = q.schema.aliasOf (hops ++ [hop]) ∧
      k.tableAlias ≠ q.schema.table ∧ ∃ hops' links, q.Uses hops' ∧ hops'.length = hops.length ∧
        k.parentAlias = q.schema.aliasOf hops' ∧ q.schema.linksOf? catalog hops' = some links ∧
        q.schema.linksOf? catalog (hops ++ [hop]) = some (links ++ [k.link]) := by
  obtain ⟨j, hj, hops', hop', hUses', k, hk, hk', hAlias⟩ := hUses.exists_kept_join h
  obtain ⟨links, hLinks, hAll⟩ := hj.links
  obtain ⟨links', hLinks', hAll'⟩ := hk'.links
  have hCalled : k.tableAlias = q.schema.aliasOf (hops ++ [hop]) := hAlias.trans hj.tableAlias_eq
  have hSame := hClear _ _ hUses' hUses (hk'.tableAlias_eq.symm.trans hCalled)
  have hApart : k.tableAlias ≠ q.schema.table := by
    intro hTaken
    have hNone := hClear _ [] hUses' hUses'.nil (hk'.tableAlias_eq.symm.trans hTaken)
    rw [hAll'] at hNone
    cases links' <;> cases hNone
  refine ⟨k, hk, hCalled, hApart, hops', links', hUses'.of_concat, ?_, hk'.parentAlias_eq, hLinks',
    hSame.symm.trans hAll'⟩
  rw [hAll, hAll'] at hSame
  obtain ⟨rfl, -⟩ := List.append_inj' (Option.some.inj hSame) rfl
  rw [← RecordSchema.length_of_linksOf? hLinks', RecordSchema.length_of_linksOf? hLinks]

theorem Uses.exists_joinPath (h : q.JoinsFields catalog) (hClear : q.Unambiguous catalog) (n : Nat)
    {hops : List String} (hLength : hops.length = n) (hUses : q.Uses hops) :
    ∃ links, q.schema.linksOf? catalog hops = some links ∧
      q.JoinPath (q.schema.aliasOf hops) links := by
  -- On the length and not on the chain, as the parent may be called by another chain as long.
  induction n generalizing hops with
  | zero =>
    obtain rfl := List.length_eq_zero_iff.mp hLength
    exact ⟨[], rfl, .base⟩
  | succ n ih =>
    obtain ⟨hops, hop, rfl⟩ := (List.eq_nil_or_concat' hops).resolve_left
      (List.ne_nil_of_length_eq_add_one hLength)
    obtain ⟨k, hk, hCalled, hApart, hops', links, hUses', hShorter, hParent, hLinks, hAll⟩ :=
      hUses.exists_parent h hClear
    have hPrevious : hops'.length = n := by
      simpa [hShorter] using hLength
    obtain ⟨found, hFound, hPath⟩ := ih hPrevious hUses'
    obtain rfl : links = found := Option.some.inj (hLinks.symm.trans hFound)
    rw [← hParent] at hPath
    exact ⟨_, hAll, hCalled ▸ hPath.join hk hApart⟩

theorem joinPath_iff_iff_unambiguous (h : q.JoinsFields catalog) :
    (∀ hops, q.Uses hops → ∀ links, q.JoinPath (q.schema.aliasOf hops) links ↔
      q.schema.linksOf? catalog hops = some links) ↔ q.Unambiguous catalog := by
  constructor
  · intro hPaths hops hops' hUses hUses' hSame
    apply Option.ext
    intro links
    rw [← hPaths hops hUses, ← hPaths hops' hUses', hSame]
  · intro hClear hops hUses links
    obtain ⟨found, hFound, hPath⟩ := hUses.exists_joinPath h hClear _ rfl
    rw [hFound, Option.some.injEq]
    constructor
    · exact hPath.unique h.nodup
    · rintro rfl
      exact hPath

theorem unambiguous_of_isPlainName (hTable : ¬ ['j', '_'] <+: q.schema.table.toList)
    (hFollows : ∀ f ∈ q.fields, f.Follows catalog q.schema)
    (h : ∀ f ∈ q.fields, ∀ hop ∈ f.hops, IsPlainName hop) : q.Unambiguous catalog := by
  have hPlain {hops : List String} (hUses : q.Uses hops) :
      ∀ hop ∈ hops, '.' ∉ hop.toList ∧ IsPlainName hop := by
    obtain ⟨f, hf, hPrefix⟩ := hUses
    intro hop hHop
    have hUsed := hPrefix.subset hHop
    exact ⟨(hFollows f hf).notMem_dot hop hUsed, h f hf hop hUsed⟩
  intro hops hops' hUses hUses' hSame
  rw [RecordSchema.aliasOf_injective hTable (fun x hx => (hPlain hUses x hx).1)
    (fun x hx => (hPlain hUses' x hx).1) (fun x hx => (hPlain hUses x hx).2)
    (fun x hx => (hPlain hUses' x hx).2) hSame]

end CompiledQuery

end RecordFilter
