import RecordFilter.Proofs.Query.Joins
import RecordFilter.Proofs.Schema.Agreement

/-!
# The joins as a FROM clause

A database takes joins one after another, each on a table that is there already. The joins of a
compiled query can be taken so: every alias is new, every parent is the base table or was joined
before. They bring what filters and sort keys read, but for a tie-break whose name is a path, and
nothing else but the preloads, which come after everything that is joined without them.
-/

namespace RecordFilter

open Resolving

section
variable {κ : Type} {catalog : Catalog κ} {schema : RecordSchema κ}

/-- Every join hangs on one of the tables named or on a join before it. -/
def ParentsFirst (names : List String) : List (JoinSpec κ) → Prop
  | [] => True
  | j :: js => j.parentAlias ∈ names ∧ ParentsFirst (j.tableAlias :: names) js

namespace ParentsFirst

variable {names names' seen : List String} {js js' before after : List (JoinSpec κ)}
  {j : JoinSpec κ}

theorem mono (h : ParentsFirst names js) (hNames : names ⊆ names') : ParentsFirst names' js := by
  induction js generalizing names names' with
  | nil => trivial
  | cons j js ih => exact ⟨hNames h.1, ih h.2 (List.cons_subset_cons _ hNames)⟩

theorem append (h : ParentsFirst names js) (h' : ParentsFirst names js') :
    ParentsFirst names (js ++ js') := by
  induction js generalizing names with
  | nil => exact h'
  | cons j js ih => exact ⟨h.1, ih h.2 (h'.mono (List.subset_cons_self _ _))⟩

theorem flatMap {α : Type} {as : List α} {f : α → List (JoinSpec κ)}
    (h : ∀ a ∈ as, ParentsFirst names (f a)) : ParentsFirst names (as.flatMap f) := by
  induction as with
  | nil => trivial
  | cons a as ih =>
    exact (h a List.mem_cons_self).append (ih fun b hb => h b (List.mem_cons_of_mem _ hb))

/-- A join is left out for one of its alias, which its children find in its place. -/
theorem newJoins (h : ParentsFirst names js) (hSeen : seen ⊆ names) :
    ParentsFirst names (newJoins seen js) := by
  induction js generalizing names seen with
  | nil => trivial
  | cons j js ih =>
    rw [RecordFilter.newJoins]
    split
    · rename_i hAlias
      have hKnown : j.tableAlias ∈ names := hSeen (List.contains_iff_mem.mp hAlias)
      exact ih (h.2.mono (List.cons_subset.mpr ⟨hKnown, List.Subset.refl _⟩)) hSeen
    · exact ⟨h.1, ih h.2 (List.cons_subset_cons _ hSeen)⟩

theorem parent_of_append (h : ParentsFirst names (before ++ j :: after)) :
    j.parentAlias ∈ names ∨ ∃ k ∈ before, k.tableAlias = j.parentAlias := by
  induction before generalizing names with
  | nil => exact .inl h.1
  | cons k before ih =>
    rcases ih h.2 with hName | ⟨i, hi, hAlias⟩
    · rcases List.mem_cons.mp hName with hAlias | hName
      · exact .inr ⟨k, List.mem_cons_self, hAlias.symm⟩
      · exact .inl hName
    · exact .inr ⟨i, List.mem_cons_of_mem _ hi, hAlias⟩

end ParentsFirst

theorem parentsFirst_of_walkRelations {owner : RecordSchema κ} {parentAlias path : String}
    {segments : List String} {walk : RelationWalk κ}
    (h : walkRelations catalog owner parentAlias path segments = some walk) :
    ParentsFirst [parentAlias] walk.joins := by
  induction segments generalizing owner parentAlias path walk with
  | nil =>
    cases h
    trivial
  | cons segment segments ih =>
    obtain ⟨r, -, h⟩ := Option.bind_eq_some_iff.mp h
    obtain ⟨rest, hRest, h⟩ := Option.bind_eq_some_iff.mp h
    cases h
    exact ⟨List.mem_singleton_self _, (ih hRest).mono (by simp)⟩

theorem spelled_of_walkRelations {owner : RecordSchema κ} {parentAlias path : String}
    {segments : List String} {walk : RelationWalk κ}
    (h : walkRelations catalog owner parentAlias path segments = some walk) :
    ∀ j ∈ walk.joins, j.tableAlias = joinAlias j.relationPath := by
  induction segments generalizing owner parentAlias path walk with
  | nil =>
    cases h
    exact nofun
  | cons segment segments ih =>
    obtain ⟨r, -, h⟩ := Option.bind_eq_some_iff.mp h
    obtain ⟨rest, hRest, h⟩ := Option.bind_eq_some_iff.mp h
    cases h
    intro j hj
    rcases List.mem_cons.mp hj with rfl | hj
    · rfl
    · exact ih hRest j hj

/-- Joins that lead from the base table over the relations of a chain. -/
structure JoinChain (schema : RecordSchema κ) (hops : List String) (joins : List (JoinSpec κ)) :
    Prop where
  parentsFirst : ParentsFirst [schema.table] joins
  tableAlias : ∀ j ∈ joins, ∃ before hop, before ++ [hop] <+: hops ∧
    j.tableAlias = schema.aliasOf (before ++ [hop])
  spelled : ∀ j ∈ joins, j.tableAlias = joinAlias j.relationPath

theorem joinChain_of_walkRelations {s : RecordSchema κ} {segments : List String}
    {walk : RelationWalk κ} (h : walkRelations catalog s s.table "" segments = some walk) :
    JoinChain s segments walk.joins where
  parentsFirst := parentsFirst_of_walkRelations h
  tableAlias := by
    intro j hj
    obtain ⟨before, hop, hPrefix, hExtends⟩ := (follows_of_start h).extends_of_mem j hj
    exact ⟨before, hop, hPrefix, hExtends.tableAlias_eq⟩
  spelled := spelled_of_walkRelations h

/-- Chains of relations are called alike whatever base table they start from. -/
theorem JoinChain.of_table_eq {s : RecordSchema κ} {hops : List String} {joins : List (JoinSpec κ)}
    (h : JoinChain s hops joins) (hTable : s.table = schema.table) :
    JoinChain schema hops joins where
  parentsFirst := hTable ▸ h.parentsFirst
  tableAlias := by
    intro j hj
    obtain ⟨before, hop, hPrefix, hAlias⟩ := h.tableAlias j hj
    refine ⟨before, hop, hPrefix, ?_⟩
    rw [hAlias, RecordSchema.aliasOf_concat, RecordSchema.aliasOf_concat]
  spelled := h.spelled

structure ResolvedField.Rooted (schema : RecordSchema κ) (f : ResolvedField κ) : Prop where
  chain : JoinChain schema f.hops f.joins
  column : f.column.table = schema.table ∨ ∃ j ∈ f.joins, j.tableAlias = f.column.table

theorem RecordSchema.rooted_of_fieldAt? {s : RecordSchema κ} {path : String} {f : ResolvedField κ}
    (h : s.fieldAt? catalog path = some f) : f.Rooted s := by
  obtain ⟨walk, hWalk, h⟩ := Option.bind_eq_some_iff.mp h
  obtain ⟨last, -, h⟩ := Option.bind_eq_some_iff.mp h
  obtain ⟨leaf, -, h⟩ := Option.bind_eq_some_iff.mp h
  cases h
  constructor
  · rw [(follows_of_start hWalk).hops_eq]
    exact joinChain_of_walkRelations hWalk
  · cases hLast : walk.joins.getLast? with
    | none => exact .inl rfl
    | some j => exact .inr ⟨j, List.mem_of_getLast? hLast, rfl⟩

theorem RecordSchema.path_of_fieldAt? {path : String} {f : ResolvedField κ}
    (h : schema.fieldAt? catalog path = some f) : f.path = path := by
  obtain ⟨walk, -, h⟩ := Option.bind_eq_some_iff.mp h
  obtain ⟨last, -, h⟩ := Option.bind_eq_some_iff.mp h
  obtain ⟨leaf, -, h⟩ := Option.bind_eq_some_iff.mp h
  cases h
  rfl

theorem Resolver.Reachable.rooted_of_resolve {r r' : Resolver κ} (h : r.Reachable catalog)
    {path : String} {field : ResolvedField κ}
    (hResolve : (resolve catalog schema path).outcome r = (.ok (some field), r')) :
    field.Rooted schema := by
  obtain ⟨s, hTable, hField⟩ := h.exists_fieldAt?_of_resolve hResolve
  have hRooted := RecordSchema.rooted_of_fieldAt? hField
  exact ⟨hRooted.chain.of_table_eq hTable, hTable ▸ hRooted.column⟩

theorem Resolver.lookupRelation_eq_some_iff {r : Resolver κ} {path : String}
    {joins : List (JoinSpec κ)} :
    r.lookupRelation catalog schema path = .ok (some joins) ↔
      pathDepth path ≤ r.maxDepth ∧ schema.joinsOf? catalog path = some joins := by
  rw [lookupRelation_eq, UnknownFieldPolicy.answer_eq_ok_some_iff, RecordSchema.joinsWithin?]
  split
  · rename_i hDeep
    exact iff_of_false nofun fun hFound => absurd hFound.1 (Nat.not_le.mpr hDeep)
  · rename_i hDepth
    rw [and_iff_right (Nat.le_of_not_lt hDepth)]

namespace Specification

variable {spec : Specification} {q : CompiledQuery κ} {r r' : Resolver κ}

/-- Preloads bring the joins of those paths that resolve, and leave the resolver as it was. -/
theorem exists_chosen_of_compilePreload {paths : List String} {joins : List (JoinSpec κ)}
    (h : (compilePreload catalog schema paths).outcome r = (.ok joins, r')) :
    r' = r ∧ ∃ chosen : List (String × List (JoinSpec κ)), joins = chosen.flatMap (·.2) ∧
      ∀ c ∈ chosen, c.1 ∈ paths ∧ pathDepth c.1 ≤ r.maxDepth ∧
        schema.joinsOf? catalog c.1 = some c.2 := by
  induction paths generalizing r r' joins with
  | nil =>
    obtain ⟨rfl, rfl⟩ := outcome_pure_eq_ok.mp h
    exact ⟨rfl, [], rfl, nofun⟩
  | cons path paths ih =>
    rw [compilePreload] at h
    obtain ⟨found, r₁, hFound, h⟩ := outcome_bind_eq_ok.mp h
    rw [Resolver.outcome_resolveRelation, Prod.mk.injEq] at hFound
    obtain ⟨hFound, rfl⟩ := hFound
    cases found with
    | none =>
      obtain ⟨hSame, chosen, hJoins, hChosen⟩ := ih h
      refine ⟨hSame, chosen, hJoins, fun c hc => ?_⟩
      obtain ⟨hPath, hLookup⟩ := hChosen c hc
      exact ⟨List.mem_cons_of_mem _ hPath, hLookup⟩
    | some first =>
      obtain ⟨rest, r₂, hRest, h⟩ := outcome_bind_eq_ok.mp h
      obtain ⟨rfl, rfl⟩ := outcome_pure_eq_ok.mp h
      obtain ⟨hSame, chosen, rfl, hChosen⟩ := ih hRest
      refine ⟨hSame, (path, first) :: chosen, rfl, fun c hc => ?_⟩
      rcases List.mem_cons.mp hc with rfl | hc
      · exact ⟨List.mem_cons_self, Resolver.lookupRelation_eq_some_iff.mp hFound⟩
      · obtain ⟨hPath, hLookup⟩ := hChosen c hc
        exact ⟨List.mem_cons_of_mem _ hPath, hLookup⟩

theorem eq_nil_or_singleton_of_tieBreak {keys last : List (SortKey κ)}
    (h : (tieBreak catalog schema keys).outcome r = (.ok last, r')) :
    last = [] ∨ ∃ k, last = [k] := by
  unfold tieBreak at h
  split at h
  · exact .inl (outcome_pure_eq_ok.mp h).1.symm
  · split at h
    · exact .inl (outcome_pure_eq_ok.mp h).1.symm
    · obtain ⟨found, r₁, -, h⟩ := outcome_bind_eq_ok.mp h
      cases found with
      | none => exact .inl (outcome_pure_eq_ok.mp h).1.symm
      | some field => exact .inr ⟨_, (outcome_pure_eq_ok.mp h).1.symm⟩

theorem exists_compile_without_preload (h : (spec.compile catalog schema).outcome r = (.ok q, r')) :
    ∃ js, js <+: q.joins ∧
      ({ spec with preload := [] }.compile catalog schema).outcome r =
        (.ok { q with joins := js }, r') := by
  obtain ⟨filters, keys, last, preloads, r₁, r₂, r₃, hFilters, hKeys, hLast, hPreloads, rfl⟩ :=
    of_compile h
  obtain ⟨rfl, -⟩ := exists_chosen_of_compilePreload hPreloads
  refine ⟨distinctJoins (filters.flatMap (·.field.joins) ++ keys.flatMap (·.field.joins)),
    newJoins_prefix_append [] _ _, ?_⟩
  refine outcome_bind_eq_ok.mpr ⟨filters, r₁, hFilters, ?_⟩
  refine outcome_bind_eq_ok.mpr ⟨keys, r₂, hKeys, ?_⟩
  refine outcome_bind_eq_ok.mpr ⟨last, r', hLast, ?_⟩
  refine outcome_bind_eq_ok.mpr ⟨[], r', rfl, ?_⟩
  rw [outcome_pure, List.append_nil]

/-- The joins are those of the fields that were asked for and of the preloads that resolve. A sort
key that was not asked for is the tie-break. -/
theorem exists_asked_of_compile (hReachable : r.Reachable catalog)
    (h : (spec.compile catalog schema).outcome r = (.ok q, r')) :
    ∃ (asked : List (ResolvedField κ)) (chosen : List (String × List (JoinSpec κ))),
      q.joins = distinctJoins (asked.flatMap (·.joins) ++ chosen.flatMap (·.2)) ∧
      (∀ f ∈ asked, f ∈ q.fields ∧ f.Rooted schema) ∧
      (∀ c ∈ chosen, c.1 ∈ spec.preload ∧ pathDepth c.1 ≤ r.maxDepth ∧
        schema.joinsOf? catalog c.1 = some c.2) ∧
      (∀ f ∈ q.filters, f.field ∈ asked) ∧
      ∀ k ∈ q.sort, k.field ∈ asked ∨ q.sort.getLast? = some k ∧
        ∃ (key : FieldDef) (s : RecordSchema κ), schema.primaryKeyField? = some key ∧
          s.table = schema.table ∧ s.fieldAt? catalog key.name = some k.field := by
  have hResolve : ∀ path, Preserves (fun s => s.Reachable catalog ∧ s.maxDepth = r.maxDepth)
      (Resolver.resolve catalog schema path) := fun path s hs =>
    ⟨hs.1.resolved schema path, (Resolver.maxDepth_outcome_resolve s path).trans hs.2⟩
  have hRooted : ∀ path s s' field, s.Reachable catalog ∧ s.maxDepth = r.maxDepth →
      (Resolver.resolve catalog schema path).outcome s = (.ok (some field), s') →
      field.Rooted schema := fun _ _ _ _ hs hFound => hs.1.rooted_of_resolve hFound
  have hDepth := ((preserves_compile hResolve spec).of_outcome_eq ⟨hReachable, rfl⟩ h).2
  obtain ⟨filters, keys, last, preloads, r₁, r₂, r₃, hFirst, hSecond, hFilters, hKeys, hLast,
    hPreloads, rfl⟩ := of_compile_of_preserves hResolve ⟨hReachable, rfl⟩ h
  obtain ⟨rfl, chosen, rfl, hChosen⟩ := exists_chosen_of_compilePreload hPreloads
  rw [hDepth] at hChosen
  refine ⟨filters.map (·.field) ++ keys.map (·.field), chosen, ?_, ?_, hChosen, ?_, ?_⟩
  · rw [List.flatMap_append, List.flatMap_map, List.flatMap_map]
  · intro f hf
    rcases List.mem_append.mp hf with hf | hf
    · obtain ⟨filter, hFilter, rfl⟩ := List.mem_map.mp hf
      refine ⟨List.mem_append_left _ hf, ?_⟩
      exact forall_field_of_compileFilters hResolve hRooted ⟨hReachable, rfl⟩ hFilters _ hFilter
    · obtain ⟨k, hk, rfl⟩ := List.mem_map.mp hf
      refine ⟨List.mem_append_right _ (List.mem_map_of_mem (List.mem_append_left _ hk)), ?_⟩
      exact forall_field_of_compileSort hResolve hRooted hFirst hKeys k hk
  · intro f hf
    exact List.mem_append_left _ (List.mem_map_of_mem hf)
  · intro k hk
    rcases List.mem_append.mp hk with hk | hk
    · exact .inl (List.mem_append_right _ (List.mem_map_of_mem hk))
    · obtain ⟨-, key, s, hKey, hResolved⟩ := resolve_of_tieBreak hLast k hk
      obtain ⟨s, hTable, hField⟩ := hSecond.1.exists_fieldAt?_of_resolve hResolved
      obtain rfl | ⟨k', rfl⟩ := eq_nil_or_singleton_of_tieBreak hLast
      · cases hk
      · obtain rfl := List.mem_singleton.mp hk
        exact .inr ⟨List.getLast?_concat, key, s, hKey, hTable, hField⟩

/-- Before those of one alias are merged, the joins are put together from chains of relations, each
one that a field reads through or a preload that resolves. -/
theorem exists_chains_of_compile (hReachable : r.Reachable catalog)
    (h : (spec.compile catalog schema).outcome r = (.ok q, r')) :
    ∃ chains : List (List String × List (JoinSpec κ)),
      q.joins = distinctJoins (chains.flatMap (·.2)) ∧
      ∀ c ∈ chains, JoinChain schema c.1 c.2 ∧
        (q.Uses c.1 ∨ ∃ path ∈ spec.preload, pathDepth path ≤ r.maxDepth ∧
          (schema.joinsOf? catalog path).isSome ∧ c.1 = Text.splitDots path) := by
  obtain ⟨asked, chosen, hJoins, hAsked, hChosen, -, -⟩ := exists_asked_of_compile hReachable h
  refine ⟨asked.map (fun f => (f.hops, f.joins)) ++
    chosen.map (fun c => (Text.splitDots c.1, c.2)), ?_, ?_⟩
  · rw [hJoins, List.flatMap_append, List.flatMap_map, List.flatMap_map]
  · intro c hc
    rcases List.mem_append.mp hc with hc | hc
    · obtain ⟨f, hf, rfl⟩ := List.mem_map.mp hc
      obtain ⟨hUsed, hRooted⟩ := hAsked f hf
      exact ⟨hRooted.chain, .inl ⟨f, hUsed, List.prefix_rfl⟩⟩
    · obtain ⟨⟨path, joins⟩, hPath, rfl⟩ := List.mem_map.mp hc
      obtain ⟨hPreload, hDepth, hFound⟩ := hChosen _ hPath
      obtain ⟨walk, hWalk, rfl⟩ := Option.map_eq_some_iff.mp hFound
      refine ⟨joinChain_of_walkRelations hWalk, .inr ⟨path, hPreload, hDepth, ?_, rfl⟩⟩
      exact Option.isSome_of_eq_some hFound

end Specification

def CompiledQuery.Brings (q : CompiledQuery κ) (c : ColumnRef) : Prop :=
  c.table = q.schema.table ∨ ∃ j ∈ q.joins, j.tableAlias = c.table

theorem CompiledQuery.brings_of_rooted {q : CompiledQuery κ} {f : ResolvedField κ}
    (hRooted : f.Rooted q.schema) {joins : List (JoinSpec κ)} (hSub : f.joins ⊆ joins)
    (hJoins : q.joins = distinctJoins joins) : q.Brings f.column := by
  rcases hRooted.column with hBase | ⟨j, hj, hAlias⟩
  · exact .inl hBase
  · obtain hSeen | ⟨k, hk, hKept⟩ := exists_mem_newJoins (hSub hj) []
    · cases hSeen
    · rw [distinctJoins] at hJoins
      exact .inr ⟨k, hJoins ▸ hk, hKept.trans hAlias⟩

namespace Specification

variable {spec : Specification} {q : CompiledQuery κ} {r r' : Resolver κ}

/-- The joins form a FROM clause: new aliases, parents before children, the tables of all columns,
nothing that is not asked for, and preloads last. Only a tie-break whose name is a path may read a
table that is not joined. -/
theorem joins_form_from_clause (hReachable : r.Reachable catalog)
    (h : (spec.compile catalog schema).outcome r = (.ok q, r')) :
    (q.joins.map (·.tableAlias)).Nodup ∧
    (∀ before j after, q.joins = before ++ j :: after →
      j.parentAlias = schema.table ∨ ∃ k ∈ before, k.tableAlias = j.parentAlias) ∧
    (∀ f ∈ q.filters, q.Brings f.field.column) ∧
    (∀ k ∈ q.sort, q.Brings k.field.column ∨ q.sort.getLast? = some k ∧
      ∃ key, schema.primaryKeyField? = some key ∧ '.' ∈ key.name.toList ∧
        k.field.path = key.name) ∧
    (∀ j ∈ q.joins, ∃ hops hop, j.tableAlias = schema.aliasOf (hops ++ [hop]) ∧
      (q.Uses (hops ++ [hop]) ∨ ∃ path ∈ spec.preload, pathDepth path ≤ r.maxDepth ∧
        (schema.joinsOf? catalog path).isSome ∧ hops ++ [hop] <+: Text.splitDots path)) ∧
    ∃ js, js <+: q.joins ∧
      ({ spec with preload := [] }.compile catalog schema).outcome r =
        (.ok { q with joins := js }, r') := by
  obtain rfl := schema_of_compile h
  obtain ⟨asked, chosen, hAskedJoins, hAsked, -, hFilters, hSort⟩ :=
    exists_asked_of_compile hReachable h
  obtain ⟨chains, hJoins, hChains⟩ := exists_chains_of_compile hReachable h
  have hBrings : ∀ f ∈ asked, q.Brings f.column := fun f hf =>
    CompiledQuery.brings_of_rooted (hAsked f hf).2
      (fun j hj => List.mem_append_left _ (List.mem_flatMap.mpr ⟨f, hf, hj⟩)) hAskedJoins
  refine ⟨?_, ?_, fun f hf => hBrings _ (hFilters f hf), ?_, ?_, exists_compile_without_preload h⟩
  · rw [hJoins]
    exact nodup_tableAlias_distinctJoins _
  · intro before j after hSplit
    have hOrder : ParentsFirst [q.schema.table] q.joins := by
      rw [hJoins]
      exact .newJoins (.flatMap fun c hc => (hChains c hc).1.parentsFirst) (List.nil_subset _)
    rw [hSplit] at hOrder
    rcases hOrder.parent_of_append with hBase | hParent
    · exact .inl (List.mem_singleton.mp hBase)
    · exact .inr hParent
  · intro k hk
    rcases hSort k hk with hField | ⟨hLast, key, s, hKey, hTable, hField⟩
    · exact .inl (hBrings _ hField)
    · by_cases hDot : '.' ∈ key.name.toList
      · exact .inr ⟨hLast, key, hKey, hDot, RecordSchema.path_of_fieldAt? hField⟩
      · rw [RecordSchema.fieldAt?_of_notMem_dot hDot] at hField
        obtain ⟨f, -, hBase⟩ := Option.map_eq_some_iff.mp hField
        rw [← hBase]
        exact .inl (.inl hTable)
  · intro j hj
    rw [hJoins] at hj
    obtain ⟨c, hc, hj⟩ := List.mem_flatMap.mp (mem_of_mem_newJoins hj)
    obtain ⟨hChain, hNeeded⟩ := hChains c hc
    obtain ⟨hops, hop, hPrefix, hAlias⟩ := hChain.tableAlias j hj
    refine ⟨hops, hop, hAlias, ?_⟩
    rcases hNeeded with ⟨f, hf, hUses⟩ | ⟨path, hPath, hDepth, hSome, hSegments⟩
    · exact .inl ⟨f, hf, hPrefix.trans hUses⟩
    · exact .inr ⟨path, hPath, hDepth, hSome, hSegments ▸ hPrefix⟩

end Specification

end

namespace Tracker

def withTeams : Specification := { mentored with preload := ["lead.team"] }

theorem from_clause_withTeams :
    ∃ q r', (withTeams.compile catalog boards).outcome resolver = (.ok q, r') ∧
      q.joins.map (·.tableAlias) =
        ["j_lead", "j_lead__mentor", "j_lead__mentor__team", "j_lead__team"] ∧
      (∀ before j after, q.joins = before ++ j :: after →
        j.parentAlias = "boards" ∨ ∃ k ∈ before, k.tableAlias = j.parentAlias) ∧
      ∀ k ∈ q.sort, q.Brings k.field.column := by
  have hReachable : resolver.Reachable catalog := .fresh rfl
  have hCompile : (withTeams.compile catalog boards).outcome resolver = (.ok _, _) := rfl
  obtain ⟨-, hParents, -, hSort, -, -⟩ :=
    Specification.joins_form_from_clause hReachable hCompile
  refine ⟨_, _, hCompile, rfl, hParents, fun k hk => (hSort k hk).resolve_right ?_⟩
  rintro ⟨-, key, ⟨⟩, hDot, -⟩
  exact absurd hDot (by decide)

/-- A slot is sorted by the key of its team, which nothing joins. -/
theorem not_brings_slots :
    ∃ q r', (({} : Specification).compile catalog slots).outcome resolver = (.ok q, r') ∧
      ∃ k ∈ q.sort, ¬ q.Brings k.field.column := by
  refine ⟨_, _, rfl, _, List.mem_cons_self, ?_⟩
  rintro (hBase | ⟨j, hj, -⟩)
  · exact absurd hBase (by decide)
  · cases hj

end Tracker

end RecordFilter
