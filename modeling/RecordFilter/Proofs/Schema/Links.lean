import RecordFilter.Proofs.Schema.BasePath

/-!
# Links between tables

A chain of relations is declared to follow certain links, each to a table by a pair of columns. The
joins of a walk are those links, one for each relation: a join hangs on the table that the relations
before it lead to. Tables are called by aliases, which depend on the names of the relations alone.
-/

namespace RecordFilter

variable {κ : Type}

/-- The table that a relation leads to, and the columns that are matched. -/
structure Link where
  table : String
  localColumn : String
  foreignColumn : String
deriving DecidableEq

def JoinSpec.link (j : JoinSpec κ) : Link := ⟨j.table, j.localColumn, j.foreignColumn⟩

def RelationDef.link (catalog : Catalog κ) (r : RelationDef κ) : Link :=
  ⟨(catalog r.target).table, r.localColumn, r.foreignColumn⟩

namespace RecordSchema

section
variable (catalog : Catalog κ)

/-- The links that a chain of relations is declared to follow, and the schema it leads to. -/
def follow? (s : RecordSchema κ) : List String → Option (List Link × RecordSchema κ)
  | [] => some ([], s)
  | hop :: hops => do
    let r ← s.findRelation? hop
    let (links, last) ← (catalog r.target).follow? hops
    return (r.link catalog :: links, last)

def linksOf? (s : RecordSchema κ) (hops : List String) : Option (List Link) :=
  (s.follow? catalog hops).map (·.1)

end

def aliasOf (s : RecordSchema κ) (hops : List String) : String :=
  if hops.isEmpty then s.table else joinAlias (hops.foldl extendPath "")

variable {catalog : Catalog κ} {s : RecordSchema κ} {links : List Link} {hops : List String}
  {last : RecordSchema κ}

theorem aliasOf_concat (s : RecordSchema κ) (hops : List String) (hop : String) :
    s.aliasOf (hops ++ [hop]) = joinAlias (extendPath (hops.foldl extendPath "") hop) := by
  rw [aliasOf, if_neg (by simp), List.foldl_append]
  rfl

theorem follow?_concat {r : RelationDef κ} {hop : String}
    (hFollow : s.follow? catalog hops = some (links, last))
    (hRelation : last.findRelation? hop = some r) :
    s.follow? catalog (hops ++ [hop]) = some (links ++ [r.link catalog], catalog r.target) := by
  induction hops generalizing s links with
  | nil =>
    cases hFollow
    simp [follow?, hRelation]
  | cons first hops ih =>
    obtain ⟨r₁, hFirst, hFollow⟩ := Option.bind_eq_some_iff.mp hFollow
    obtain ⟨⟨rest, t⟩, hRest, hFollow⟩ := Option.bind_eq_some_iff.mp hFollow
    cases hFollow
    simp [follow?, hFirst, ih hRest]

theorem length_of_linksOf? (h : s.linksOf? catalog hops = some links) :
    links.length = hops.length := by
  obtain ⟨⟨links, last⟩, hFollow, rfl⟩ := Option.map_eq_some_iff.mp h
  induction hops generalizing s links last with
  | nil =>
    cases hFollow
    rfl
  | cons hop hops ih =>
    obtain ⟨r, -, hFollow⟩ := Option.bind_eq_some_iff.mp hFollow
    obtain ⟨⟨rest, t⟩, hRest, hFollow⟩ := Option.bind_eq_some_iff.mp hFollow
    cases hFollow
    exact congrArg Nat.succ (ih rest last hRest (Option.map_eq_some_iff.mpr ⟨_, hRest, rfl⟩))

end RecordSchema

/-- The join follows one relation more than a chain from the base table. -/
structure JoinSpec.Extends (catalog : Catalog κ) (s : RecordSchema κ) (hops : List String)
    (hop : String) (j : JoinSpec κ) : Prop where
  tableAlias_eq : j.tableAlias = s.aliasOf (hops ++ [hop])
  parentAlias_eq : j.parentAlias = s.aliasOf hops
  links : ∃ links, s.linksOf? catalog hops = some links ∧
    s.linksOf? catalog (hops ++ [hop]) = some (links ++ [j.link])

theorem JoinSpec.extends_ofRelation {catalog : Catalog κ} {s owner : RecordSchema κ}
    {links : List Link} {hops : List String} {r : RelationDef κ}
    (hFollow : s.follow? catalog hops = some (links, owner))
    (hRelation : owner.findRelation? r.name = some r) :
    (JoinSpec.ofRelation catalog (extendPath (hops.foldl extendPath "") r.name)
      (s.aliasOf hops) r).Extends catalog s hops r.name := by
  constructor
  · exact (s.aliasOf_concat hops r.name).symm
  · rfl
  · exact ⟨links, Option.map_eq_some_iff.mpr ⟨_, hFollow, rfl⟩,
      Option.map_eq_some_iff.mpr ⟨_, RecordSchema.follow?_concat hFollow hRelation, rfl⟩⟩

/-- A walk from where a chain of relations has led. -/
structure RelationWalk.Follows (catalog : Catalog κ) (s : RecordSchema κ)
    (before segments : List String) (walk : RelationWalk κ) : Prop where
  hops_eq : walk.hops = segments
  exists_join : ∀ hops hop, hops ++ [hop] <+: segments →
    ∃ j ∈ walk.joins, j.Extends catalog s (before ++ hops) hop
  extends_of_mem : ∀ j ∈ walk.joins, ∃ hops hop, hops ++ [hop] <+: segments ∧
    j.Extends catalog s (before ++ hops) hop
  tableAlias_eq : (walk.joins.getLast?.map (·.tableAlias)).getD (s.aliasOf before) =
    s.aliasOf (before ++ segments)

theorem follows_of_walkRelations {catalog : Catalog κ} {s owner : RecordSchema κ}
    {links : List Link} {before segments : List String} {walk : RelationWalk κ}
    (hFollow : s.follow? catalog before = some (links, owner))
    (h : walkRelations catalog owner (s.aliasOf before) (before.foldl extendPath "") segments =
      some walk) : walk.Follows catalog s before segments := by
  induction segments generalizing owner links before walk with
  | nil =>
    cases h
    constructor
    · rfl
    · intro hops hop hPrefix
      simpa using hPrefix.length_le
    · exact nofun
    · simp
  | cons segment segments ih =>
    obtain ⟨r, hRelation, h⟩ := Option.bind_eq_some_iff.mp h
    obtain ⟨rest, hRest, h⟩ := Option.bind_eq_some_iff.mp h
    cases h
    obtain rfl : r.name = segment := RecordSchema.name_of_findRelation? hRelation
    have hJoin := JoinSpec.extends_ofRelation hFollow hRelation
    have hRestFollows : rest.Follows catalog s (before ++ [r.name]) segments := by
      apply ih (RecordSchema.follow?_concat hFollow hRelation)
      rw [RecordSchema.aliasOf_concat, List.foldl_append]
      exact hRest
    constructor
    · exact congrArg (r.name :: ·) hRestFollows.hops_eq
    · intro hops hop hPrefix
      cases hops with
      | nil =>
        obtain ⟨rfl, -⟩ := List.cons_prefix_cons.mp hPrefix
        exact ⟨_, List.mem_cons_self, (List.append_nil before).symm ▸ hJoin⟩
      | cons first hops =>
        obtain ⟨rfl, hBehind⟩ := List.cons_prefix_cons.mp hPrefix
        obtain ⟨j, hj, hExtends⟩ := hRestFollows.exists_join hops hop hBehind
        rw [List.append_cons]
        exact ⟨j, List.mem_cons_of_mem _ hj, hExtends⟩
    · intro j hj
      rcases List.mem_cons.mp hj with rfl | hj
      · exact ⟨[], r.name, by simp, (List.append_nil before).symm ▸ hJoin⟩
      · obtain ⟨hops, hop, hPrefix, hExtends⟩ := hRestFollows.extends_of_mem j hj
        rw [← List.append_cons] at hExtends
        exact ⟨r.name :: hops, hop, List.cons_prefix_cons.mpr ⟨rfl, hPrefix⟩, hExtends⟩
    · rw [List.append_cons, ← hRestFollows.tableAlias_eq, ← hJoin.tableAlias_eq]
      rw [List.getLast?_cons]
      cases rest.joins.getLast? <;> rfl

section
variable {catalog : Catalog κ} {s : RecordSchema κ} {path : String}

theorem follows_of_start {segments : List String} {walk : RelationWalk κ}
    (h : walkRelations catalog s s.table "" segments = some walk) :
    walk.Follows catalog s [] segments := follows_of_walkRelations rfl h

theorem RecordSchema.extends_of_joinsOf? {joins : List (JoinSpec κ)}
    (h : s.joinsOf? catalog path = some joins) :
    ∀ j ∈ joins, ∃ hops hop, j.Extends catalog s hops hop := by
  obtain ⟨walk, hWalk, rfl⟩ := Option.map_eq_some_iff.mp h
  intro j hj
  obtain ⟨hops, hop, -, hExtends⟩ := (follows_of_start hWalk).extends_of_mem j hj
  exact ⟨hops, hop, hExtends⟩

/-- What a resolved field has to do with the chain of its relations. -/
structure ResolvedField.Follows (catalog : Catalog κ) (s : RecordSchema κ) (f : ResolvedField κ) :
    Prop where
  notMem_dot : ∀ hop ∈ f.hops, '.' ∉ hop.toList
  exists_join : ∀ hops hop, hops ++ [hop] <+: f.hops →
    ∃ j ∈ f.joins, j.Extends catalog s hops hop
  extends_of_mem : ∀ j ∈ f.joins, ∃ hops hop, hops ++ [hop] <+: f.hops ∧
    j.Extends catalog s hops hop
  table_eq : f.column.table = s.aliasOf f.hops

theorem RecordSchema.follows_of_fieldAt? {f : ResolvedField κ}
    (h : s.fieldAt? catalog path = some f) : f.Follows catalog s := by
  obtain ⟨walk, hWalk, h⟩ := Option.bind_eq_some_iff.mp h
  obtain ⟨last, -, h⟩ := Option.bind_eq_some_iff.mp h
  obtain ⟨leaf, -, h⟩ := Option.bind_eq_some_iff.mp h
  cases h
  have hFollows := follows_of_start hWalk
  have hHops := hFollows.hops_eq
  constructor
  · intro hop hHop
    rw [hHops] at hHop
    exact Text.notMem_dot_of_mem_splitDots (List.dropLast_subset _ hHop)
  · intro hops hop hPrefix
    rw [hHops] at hPrefix
    exact hFollows.exists_join hops hop hPrefix
  · intro j hj
    rw [hHops]
    exact hFollows.extends_of_mem j hj
  · rw [hHops]
    exact hFollows.tableAlias_eq

end

end RecordFilter
