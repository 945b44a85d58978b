import RecordFilter.Proofs.Schema.Agreement

/-!
# Declared paths

Names lead over relations from schema to schema, each to the first relation of its name. A path is
declared if its segments but the last lead to a schema that has a field of the last name. The walk
finds exactly the declared paths: it passes one join for each relation, each hanging on the one
before, and the relations are followed in the same order on a record.
-/

namespace RecordFilter

structure Text.DotSeparated (path : String) (segments : List String) : Prop where
  ne_nil : segments ≠ []
  intercalate_eq : ".".intercalate segments = path
  notMem_dot : ∀ segment ∈ segments, '.' ∉ segment.toList

theorem Text.dotSeparated_splitDots (path : String) : DotSeparated path (splitDots path) := by
  constructor
  · simp [splitDots]
  · have hJoined : ['.'].intercalate (path.toList.splitOn '.') = path.toList :=
      List.intercalate_splitOn '.'
    apply String.toList_inj.mp
    rw [String.toList_intercalate, splitDots, List.map_map]
    have hPieces : String.toList ∘ String.ofList = id := funext fun _ => String.toList_ofList
    rw [hPieces, List.map_id]
    exact hJoined
  · exact fun segment hSegment => notMem_dot_of_mem_splitDots hSegment

/-- The first of the items that has the name. -/
def FirstNamed {α : Type} (nameOf : α → String) (items : List α) (name : String) (a : α) : Prop :=
  nameOf a = name ∧ ∃ before after, items = before ++ a :: after ∧ ∀ b ∈ before, nameOf b ≠ name

theorem find?_eq_some_iff_firstNamed {α : Type} {nameOf : α → String} {items : List α}
    {name : String} {a : α} :
    items.find? (fun b => nameOf b == name) = some a ↔ FirstNamed nameOf items name a := by
  rw [List.find?_eq_some_iff_append, FirstNamed]
  simp

namespace RecordSchema

variable {κ : Type}

/-- The names lead from a schema over the relations to another one. -/
inductive Leads (catalog : Catalog κ) :
    RecordSchema κ → List String → List (RelationDef κ) → RecordSchema κ → Prop
  | here (s : RecordSchema κ) : Leads catalog s [] [] s
  | step {s t : RecordSchema κ} {name : String} {names : List String} {r : RelationDef κ}
      {rs : List (RelationDef κ)} : FirstNamed RelationDef.name s.relations name r →
      Leads catalog (catalog r.target) names rs t → Leads catalog s (name :: names) (r :: rs) t

/-- All names but the last lead over the relations to a schema whose first field of the last name
is the leaf. -/
def Declares (catalog : Catalog κ) (s : RecordSchema κ) (names : List String)
    (rs : List (RelationDef κ)) (leaf : FieldDef) : Prop :=
  ∃ hops last t, names = hops ++ [last] ∧ s.Leads catalog hops rs t ∧
    FirstNamed FieldDef.name t.fields last leaf

end RecordSchema

variable {κ : Type}

structure JoinSpec.Loads (catalog : Catalog κ) (r : RelationDef κ) (parent : String)
    (j : JoinSpec κ) : Prop where
  parentAlias_eq : j.parentAlias = parent
  localColumn_eq : j.localColumn = r.localColumn
  foreignColumn_eq : j.foreignColumn = r.foreignColumn
  table_eq : j.table = (catalog r.target).table
  schema_eq : j.schema = catalog r.target

/-- One join for each relation. The first hangs on the one table, each later one on the join before
it, and the last one is called as the other table. -/
inductive JoinedAlong (catalog : Catalog κ) :
    String → List (RelationDef κ) → List (JoinSpec κ) → String → Prop
  | here (table : String) : JoinedAlong catalog table [] [] table
  | step {parent last : String} {r : RelationDef κ} {rs : List (RelationDef κ)} {j : JoinSpec κ}
      {js : List (JoinSpec κ)} : j.Loads catalog r parent →
      JoinedAlong catalog j.tableAlias rs js last →
      JoinedAlong catalog parent (r :: rs) (j :: js) last

/-- The names are relations that are loaded, one on the other, and lead to the other record. -/
inductive Record.Reaches : Record → List String → Record → Prop
  | here (r : Record) : Reaches r [] r
  | step {r next t : Record} {name : String} {names : List String} :
      r.relation? name = some next → Reaches next names t → Reaches r (name :: names) t

structure ResolvedField.Describes (catalog : Catalog κ) (s : RecordSchema κ)
    (segments : List String) (rs : List (RelationDef κ)) (leaf : FieldDef) (f : ResolvedField κ) :
    Prop where
  segments_eq : f.hops ++ [f.leaf] = segments
  joined : JoinedAlong catalog s.table rs f.joins f.column.table
  column_eq : f.column.column = leaf.column
  kind_eq : f.kind = leaf.kind
  read_of_reaches : ∀ record t, record.Reaches f.hops t → f.read record = t.field f.leaf
  read_of_not_reaches : ∀ record, (∀ t, ¬ record.Reaches f.hops t) → f.read record = .null

theorem Record.follow?_eq_some_iff {r t : Record} {names : List String} :
    r.follow? names = some t ↔ r.Reaches names t := by
  constructor
  · intro h
    induction names generalizing r with
    | nil =>
      cases h
      exact .here _
    | cons name names ih =>
      obtain ⟨next, hNext, h⟩ := Option.bind_eq_some_iff.mp h
      exact .step hNext (ih h)
  · intro h
    induction h with
    | here => rfl
    | step hNext _ ih => exact Option.bind_eq_some_iff.mpr ⟨_, hNext, ih⟩

theorem Record.read_of_reaches {r t : Record} {hops : List String} (h : r.Reaches hops t)
    (leaf : String) : r.read hops leaf = t.field leaf := by
  rw [read, follow?_eq_some_iff.mpr h]

theorem Record.read_of_not_reaches {r : Record} {hops : List String}
    (h : ∀ t, ¬ r.Reaches hops t) (leaf : String) : r.read hops leaf = .null := by
  have hNone : r.follow? hops = none := by
    rw [Option.eq_none_iff_forall_ne_some]
    exact fun t hFollow => h t (follow?_eq_some_iff.mp hFollow)
  rw [read, hNone]

variable {catalog : Catalog κ} {s : RecordSchema κ}

theorem leads_of_walkRelations {owner : RecordSchema κ} {parentAlias path : String}
    {names : List String} {walk : RelationWalk κ}
    (h : walkRelations catalog owner parentAlias path names = some walk) :
    walk.hops = names ∧ ∃ rs, owner.Leads catalog names rs walk.owner ∧
      JoinedAlong catalog parentAlias rs walk.joins
        ((walk.joins.getLast?.map (·.tableAlias)).getD parentAlias) := by
  induction names generalizing owner parentAlias path walk with
  | nil =>
    cases h
    exact ⟨rfl, [], .here owner, .here parentAlias⟩
  | cons name names ih =>
    obtain ⟨r, hRelation, h⟩ := Option.bind_eq_some_iff.mp h
    obtain ⟨rest, hRest, h⟩ := Option.bind_eq_some_iff.mp h
    cases h
    have hFirst := find?_eq_some_iff_firstNamed.mp hRelation
    obtain ⟨hHops, rs, hLeads, hJoined⟩ := ih hRest
    refine ⟨?_, r :: rs, .step hFirst hLeads, ?_⟩
    · rw [← hFirst.1, ← hHops]
    · rw [List.getLast?_cons]
      have hJoin : (JoinSpec.ofRelation catalog (extendPath path r.name) parentAlias r).Loads
          catalog r parentAlias := ⟨rfl, rfl, rfl, rfl, rfl⟩
      apply JoinedAlong.step hJoin
      cases hLast : rest.joins.getLast? <;> rw [hLast] at hJoined <;> exact hJoined

theorem RecordSchema.Leads.exists_walkRelations {owner t : RecordSchema κ} {names : List String}
    {rs : List (RelationDef κ)} (h : owner.Leads catalog names rs t)
    (parentAlias path : String) :
    ∃ walk, walkRelations catalog owner parentAlias path names = some walk ∧ walk.owner = t := by
  induction h generalizing parentAlias path with
  | here owner => exact ⟨_, rfl, rfl⟩
  | @step owner t name names r rs hFirst _ ih =>
    have hRelation : owner.findRelation? name = some r := find?_eq_some_iff_firstNamed.mpr hFirst
    obtain ⟨walk, hWalk, rfl⟩ := ih (joinAlias (extendPath path r.name)) (extendPath path r.name)
    simp [walkRelations, JoinSpec.ofRelation, hRelation, hWalk]

namespace RecordSchema

variable {path : String}

theorem declares_of_fieldAt? {f : ResolvedField κ} (h : s.fieldAt? catalog path = some f) :
    ∃ rs leaf, s.Declares catalog (Text.splitDots path) rs leaf ∧
      f.Describes catalog s (Text.splitDots path) rs leaf := by
  obtain ⟨walk, hWalk, h⟩ := Option.bind_eq_some_iff.mp h
  obtain ⟨last, hLast, h⟩ := Option.bind_eq_some_iff.mp h
  obtain ⟨leaf, hLeaf, h⟩ := Option.bind_eq_some_iff.mp h
  cases h
  obtain ⟨hHops, rs, hLeads, hJoined⟩ := leads_of_walkRelations hWalk
  have hFirst := find?_eq_some_iff_firstNamed.mp hLeaf
  have hSegments : Text.splitDots path = (Text.splitDots path).dropLast ++ [last] := by
    obtain ⟨hops, hSplit⟩ := List.getLast?_eq_some_iff.mp hLast
    rw [hSplit, List.dropLast_concat]
  refine ⟨rs, leaf, ⟨_, last, walk.owner, hSegments, hLeads, hFirst⟩, ?_⟩
  constructor
  · rw [hHops, hFirst.1]
    exact hSegments.symm
  · exact hJoined
  · rfl
  · rfl
  · exact fun record t hReaches => Record.read_of_reaches hReaches _
  · exact fun record hNot => Record.read_of_not_reaches hNot _

theorem isSome_fieldAt?_iff :
    (s.fieldAt? catalog path).isSome ↔
      ∃ rs leaf, s.Declares catalog (Text.splitDots path) rs leaf := by
  constructor
  · intro h
    obtain ⟨f, hField⟩ := Option.isSome_iff_exists.mp h
    obtain ⟨rs, leaf, hDeclares, -⟩ := declares_of_fieldAt? hField
    exact ⟨rs, leaf, hDeclares⟩
  · rintro ⟨rs, leaf, hops, last, t, hSegments, hLeads, hFirst⟩
    obtain ⟨walk, hWalk, rfl⟩ := hLeads.exists_walkRelations s.table ""
    have hLeaf : walk.owner.findField? last = some leaf := find?_eq_some_iff_firstNamed.mpr hFirst
    rw [fieldAt?, hSegments, List.dropLast_concat, List.getLast?_concat, hWalk]
    simp [hLeaf]

theorem joinedAlong_of_joinsOf? {joins : List (JoinSpec κ)}
    (h : s.joinsOf? catalog path = some joins) :
    ∃ rs t last, s.Leads catalog (Text.splitDots path) rs t ∧
      JoinedAlong catalog s.table rs joins last := by
  obtain ⟨walk, hWalk, rfl⟩ := Option.map_eq_some_iff.mp h
  obtain ⟨-, rs, hLeads, hJoined⟩ := leads_of_walkRelations hWalk
  exact ⟨rs, walk.owner, _, hLeads, hJoined⟩

theorem isSome_joinsOf?_iff :
    (s.joinsOf? catalog path).isSome ↔ ∃ rs t, s.Leads catalog (Text.splitDots path) rs t := by
  constructor
  · intro h
    obtain ⟨joins, hJoins⟩ := Option.isSome_iff_exists.mp h
    obtain ⟨rs, t, -, hLeads, -⟩ := joinedAlong_of_joinsOf? hJoins
    exact ⟨rs, t, hLeads⟩
  · rintro ⟨rs, t, hLeads⟩
    obtain ⟨walk, hWalk, -⟩ := hLeads.exists_walkRelations s.table ""
    rw [joinsOf?, hWalk]
    rfl

end RecordSchema

/-- What is answered about a path with so many segments, found only if it is declared. -/
structure UnknownFieldPolicy.AnswersPath {α : Type} (p : UnknownFieldPolicy) (maxDepth : Nat)
    (record path : String) (depth : Nat) (declared : Prop)
    (answer : Except FilterError (Option α)) : Prop where
  found_iff : (∃ a, answer = .ok (some a)) ↔ depth ≤ maxDepth ∧ declared
  dropped_iff : answer = .ok none ↔ p = .ignore ∧ ¬ (depth ≤ maxDepth ∧ declared)
  tooDeep_iff : answer = .error (.fieldTooDeep path maxDepth) ↔ p = .reject ∧ maxDepth < depth
  unknown_iff : answer = .error (.unknownField record path) ↔
    p = .reject ∧ depth ≤ maxDepth ∧ ¬ declared

theorem UnknownFieldPolicy.answersPath {α : Type} (p : UnknownFieldPolicy) (maxDepth : Nat)
    (record path : String) (depth : Nat) {declared : Prop} {found : Option α}
    (hFound : found.isSome ↔ declared) :
    p.AnswersPath maxDepth record path depth declared
      (p.answer (if maxDepth < depth then none else found)
        (if maxDepth < depth then .fieldTooDeep path maxDepth else .unknownField record path)) := by
  by_cases hDepth : maxDepth < depth
  · rw [if_pos hDepth, if_pos hDepth]
    have hNot : ¬ depth ≤ maxDepth := Nat.not_le.mpr hDepth
    cases p <;> constructor <;> simp [answer, drop, hDepth, hNot]
  · rw [if_neg hDepth, if_neg hDepth]
    have hWithin : depth ≤ maxDepth := Nat.not_lt.mp hDepth
    cases found with
    | some a =>
      have hDeclared : declared := hFound.mp rfl
      constructor <;> simp [answer, hDepth, hWithin, hDeclared]
    | none =>
      have hUndeclared : ¬ declared := fun h => Bool.false_ne_true (hFound.mpr h)
      cases p <;> constructor <;> simp [answer, drop, hDepth, hWithin, hUndeclared]

namespace Resolver

variable {r : Resolver κ}

theorem answersPath_lookup (path : String) :
    r.policy.AnswersPath r.maxDepth s.name path (Text.splitDots path).length
      (∃ rs leaf, s.Declares catalog (Text.splitDots path) rs leaf) (r.lookup catalog s path) := by
  rw [lookup_eq]
  exact r.policy.answersPath _ _ _ _ RecordSchema.isSome_fieldAt?_iff

theorem answersPath_lookupRelation (path : String) :
    r.policy.AnswersPath r.maxDepth s.name path (Text.splitDots path).length
      (∃ rs t, s.Leads catalog (Text.splitDots path) rs t) (r.lookupRelation catalog s path) := by
  rw [lookupRelation_eq]
  exact r.policy.answersPath _ _ _ _ RecordSchema.isSome_joinsOf?_iff

end Resolver

end RecordFilter
