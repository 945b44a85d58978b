import RecordFilter.Proofs.Query.JoinPath
import RecordFilter.Proofs.Query.PrimaryKey

/-!
# The joins of a compiled query

A compiled query joins what its fields need, and then what is preloaded. From the column of a field
the joins lead back over the very relations that the field is read through, unless aliases are
ambiguous. Names of relations that hold no double underscore and do not end in one never are.
-/

namespace RecordFilter

open Resolving

section
variable {κ : Type}

namespace Specification

variable {catalog : Catalog κ} {schema : RecordSchema κ}

theorem extends_of_compilePreload {paths : List String} {joins : List (JoinSpec κ)}
    {r r' : Resolver κ}
    (h : (compilePreload catalog schema paths).outcome r = (.ok joins, r')) :
    ∀ j ∈ joins, ∃ hops hop, j.Extends catalog schema hops hop := by
  induction paths generalizing r r' joins with
  | nil =>
    rw [compilePreload] at h
    obtain ⟨rfl, -⟩ := outcome_pure_eq_ok.mp h
    exact nofun
  | cons path paths ih =>
    rw [compilePreload] at h
    obtain ⟨found, r₁, hFound, h⟩ := outcome_bind_eq_ok.mp h
    cases found with
    | none => exact ih h
    | some first =>
      obtain ⟨rest, r₂, hRest, h⟩ := outcome_bind_eq_ok.mp h
      obtain ⟨rfl, -⟩ := outcome_pure_eq_ok.mp h
      intro j hj
      rcases List.mem_append.mp hj with hj | hj
      · exact RecordSchema.extends_of_joinsOf? (Resolver.joinsOf?_of_resolveRelation hFound) j hj
      · exact ih hRest j hj

section
variable {spec : Specification} {q : CompiledQuery κ} {r r' : Resolver κ}

theorem schema_of_compile (h : (spec.compile catalog schema).outcome r = (.ok q, r')) :
    q.schema = schema := by
  obtain ⟨_, _, _, _, _, _, _, -, -, -, -, rfl⟩ := of_compile h
  rfl

theorem follows_of_compile (hFaithful : r.Faithful catalog schema)
    (h : (spec.compile catalog schema).outcome r = (.ok q, r')) :
    ∀ f ∈ q.fields, f.Follows catalog schema := by
  have hResolve : ∀ path, Preserves (Resolver.Faithful catalog schema)
      (Resolver.resolve catalog schema path) := Resolver.preserves_resolve
  obtain ⟨filters, keys, last, preloads, r₁, r₂, r₃, hFirst, hSecond, hFilters, hKeys, hLast, -,
    rfl⟩ := of_compile_of_preserves hResolve hFaithful h
  have hFollows : ∀ path s s' field, Resolver.Faithful catalog schema s →
      (Resolver.resolve catalog schema path).outcome s = (.ok (some field), s') →
      field.Follows catalog schema := fun _ _ _ _ hs hFound =>
    RecordSchema.follows_of_fieldAt? (hs.fieldAt?_of_resolve hFound)
  intro f hf
  rcases List.mem_append.mp hf with hf | hf
  · obtain ⟨filter, hFilter, rfl⟩ := List.mem_map.mp hf
    exact forall_field_of_compileFilters hResolve hFollows hFaithful hFilters _ hFilter
  · obtain ⟨k, hk, rfl⟩ := List.mem_map.mp hf
    rcases List.mem_append.mp hk with hk | hk
    · exact forall_field_of_compileSort hResolve hFollows hFirst hKeys k hk
    · obtain ⟨-, key, s, -, hResolved⟩ := resolve_of_tieBreak hLast k hk
      exact hFollows _ _ _ _ hSecond hResolved

/-- The joins are those of the fields that were asked for and of the preloads, in this order. -/
theorem joins_of_compile (hFaithful : r.Faithful catalog schema)
    (h : (spec.compile catalog schema).outcome r = (.ok q, r')) :
    ∃ (asked last : List (ResolvedField κ)) (preloads : List (JoinSpec κ)),
      q.fields = asked ++ last ∧
      q.joins = distinctJoins (asked.flatMap (·.joins) ++ preloads) ∧
      (∀ f ∈ last, ∃ key, schema.primaryKeyField? = some key ∧
        schema.fieldAt? catalog key.name = some f) ∧
      ∀ j ∈ preloads, ∃ hops hop, j.Extends catalog schema hops hop := by
  have hResolve : ∀ path, Preserves (Resolver.Faithful catalog schema)
      (Resolver.resolve catalog schema path) := Resolver.preserves_resolve
  obtain ⟨filters, keys, last, preloads, r₁, r₂, r₃, -, hSecond, -, -, hLast, hPreloads, rfl⟩ :=
    of_compile_of_preserves hResolve hFaithful h
  refine ⟨filters.map (·.field) ++ keys.map (·.field), last.map (·.field), preloads, ?_, ?_, ?_,
    extends_of_compilePreload hPreloads⟩
  · simp [CompiledQuery.fields]
  · rw [List.flatMap_append, List.flatMap_map, List.flatMap_map]
  · intro f hf
    obtain ⟨k, hk, rfl⟩ := List.mem_map.mp hf
    obtain ⟨-, key, s, hKey, hResolved⟩ := resolve_of_tieBreak hLast k hk
    exact ⟨key, hKey, hSecond.fieldAt?_of_resolve hResolved⟩

theorem joinsFields_of_compile (hFaithful : r.Faithful catalog schema)
    (hDot : ∀ key, schema.primaryKeyField? = some key → '.' ∉ key.name.toList)
    (h : (spec.compile catalog schema).outcome r = (.ok q, r')) : q.JoinsFields catalog := by
  obtain ⟨asked, last, preloads, hFields, hJoins, hLast, -⟩ := joins_of_compile hFaithful h
  -- The tie-break is on a field of the base record, so the joins it leaves out are none.
  have hBare : ∀ f ∈ last, f.joins = [] := by
    intro f hf
    obtain ⟨key, hKey, hField⟩ := hLast f hf
    rw [RecordSchema.fieldAt?_of_notMem_dot (hDot key hKey)] at hField
    obtain ⟨g, -, rfl⟩ := Option.map_eq_some_iff.mp hField
    rfl
  constructor
  · rw [hJoins]
    exact nodup_tableAlias_distinctJoins _
  · rw [schema_of_compile h]
    exact follows_of_compile hFaithful h
  · rw [hFields, hJoins]
    intro f hf j hj
    rcases List.mem_append.mp hf with hf | hf
    · obtain ⟨k, hk, hKept, hAlias⟩ :=
        exists_kept_join (List.mem_flatMap.mpr ⟨f, hf, hj⟩) preloads
      obtain ⟨g, hg, hkg⟩ := List.mem_flatMap.mp hk
      exact ⟨g, List.mem_append_left _ hg, k, hkg, hKept, hAlias⟩
    · rw [hBare f hf] at hj
      cases hj

theorem extends_of_compile (hFaithful : r.Faithful catalog schema)
    (h : (spec.compile catalog schema).outcome r = (.ok q, r')) :
    ∀ j ∈ q.joins, ∃ hops hop, j.Extends catalog schema hops hop := by
  obtain ⟨asked, last, preloads, hFields, hJoins, -, hPreloads⟩ := joins_of_compile hFaithful h
  intro j hj
  rw [hJoins] at hj
  rcases List.mem_append.mp (mem_of_mem_newJoins hj) with hj | hj
  · obtain ⟨f, hf, hj⟩ := List.mem_flatMap.mp hj
    have hFollows := follows_of_compile hFaithful h f (hFields ▸ List.mem_append_left _ hf)
    obtain ⟨hops, hop, -, hExtends⟩ := hFollows.extends_of_mem j hj
    exact ⟨hops, hop, hExtends⟩
  · exact hPreloads j hj

/-- The joins lead from each field, and from each chain of relations on its way, back to the base
table over the links that the schemas declare, exactly if no alias stands for different links. -/
theorem joinPath_iff_linksOf?_iff_unambiguous (hFaithful : r.Faithful catalog schema)
    (hDot : ∀ key, schema.primaryKeyField? = some key → '.' ∉ key.name.toList)
    (h : (spec.compile catalog schema).outcome r = (.ok q, r')) :
    (∀ f ∈ q.fields, f.column.table = schema.aliasOf f.hops) ∧
      ((∀ hops, q.Uses hops → ∀ links, q.JoinPath (schema.aliasOf hops) links ↔
        schema.linksOf? catalog hops = some links) ↔ q.Unambiguous catalog) ∧
      (¬ ['j', '_'] <+: schema.table.toList → (∀ j ∈ q.joins, j.tableAlias ≠ schema.table) ∧
        ((∀ f ∈ q.fields, ∀ hop ∈ f.hops, IsPlainName hop) → q.Unambiguous catalog)) := by
  obtain rfl := schema_of_compile h
  have hFollows := follows_of_compile hFaithful h
  refine ⟨fun f hf => (hFollows f hf).table_eq, ?_, ?_⟩
  · exact CompiledQuery.joinPath_iff_iff_unambiguous (joinsFields_of_compile hFaithful hDot h)
  · intro hTable
    refine ⟨?_, CompiledQuery.unambiguous_of_isPlainName hTable hFollows⟩
    intro j hj
    obtain ⟨hops, hop, hExtends⟩ := extends_of_compile hFaithful h j hj
    rw [hExtends.tableAlias_eq]
    exact RecordSchema.aliasOf_ne_table hTable (by simp)

end

end Specification

end

namespace Tracker

inductive Entity where
  | member
  | team

def teams : RecordSchema Entity :=
  { name := "Team", table := "teams", primaryKey := some "id"
    fields := [⟨"id", "id", .integer⟩, ⟨"name", "name", .text⟩] }

def members : RecordSchema Entity :=
  { name := "Member", table := "members", primaryKey := some "id"
    fields := [⟨"id", "id", .integer⟩, ⟨"name", "name", .text⟩]
    relations := [⟨"team", "team_id", "id", .team⟩, ⟨"mentor", "mentor_id", "id", .member⟩] }

def catalog : Catalog Entity
  | .member => members
  | .team => teams

def boards : RecordSchema Entity :=
  { name := "Board", table := "boards", primaryKey := some "id"
    fields := [⟨"id", "id", .integer⟩]
    relations := [⟨"lead", "lead_id", "id", .member⟩] }

def named (path value : String) : FieldFilter :=
  { field := path, mode := .equal, dataType := .text, value := some (.scalar (.text value)) }

def mentored : Specification :=
  { filters := [named "lead.mentor.team.name" "core"], sort := [⟨"lead.name", .asc⟩] }

def resolver : Resolver Entity := { maxDepth := 4, policy := .reject }

def leadJoin : JoinSpec Entity := ⟨"lead", "j_lead", "members", "boards", "lead_id", "id", members⟩

def mentorJoin : JoinSpec Entity :=
  ⟨"lead.mentor", "j_lead__mentor", "members", "j_lead", "mentor_id", "id", members⟩

def mentorTeamJoin : JoinSpec Entity :=
  ⟨"lead.mentor.team", "j_lead__mentor__team", "teams", "j_lead__mentor", "team_id", "id", teams⟩

def mentorTeamName : ResolvedField Entity :=
  { path := "lead.mentor.team.name", hops := ["lead", "mentor", "team"], leaf := "name"
    kind := .text, column := ⟨"j_lead__mentor__team", "name"⟩
    joins := [leadJoin, mentorJoin, mentorTeamJoin] }

def leadName : ResolvedField Entity :=
  { path := "lead.name", hops := ["lead"], leaf := "name", kind := .text
    column := ⟨"j_lead", "name"⟩, joins := [leadJoin] }

def boardId : ResolvedField Entity := ⟨"id", [], "id", .integer, ⟨"boards", "id"⟩, []⟩

def mentoredQuery : CompiledQuery Entity :=
  { schema := boards
    logic := .and
    filters := [⟨mentorTeamName, .text, .identity, .text .equals "core" false⟩]
    sort := [⟨leadName, .text, .asc⟩, ⟨boardId, .number, .asc⟩]
    joins := [leadJoin, mentorJoin, mentorTeamJoin] }

theorem join_path_of_mentored :
    (∃ r', (mentored.compile catalog boards).outcome resolver = (.ok mentoredQuery, r')) ∧
      mentoredQuery.JoinPath mentorTeamName.column.table [⟨"members", "lead_id", "id"⟩,
        ⟨"members", "mentor_id", "id"⟩, ⟨"teams", "team_id", "id"⟩] := by
  have hCompile : ∃ r', (mentored.compile catalog boards).outcome resolver =
      (.ok mentoredQuery, r') := ⟨_, rfl⟩
  refine ⟨hCompile, ?_⟩
  obtain ⟨r', hCompile⟩ := hCompile
  have hDot : ∀ key, boards.primaryKeyField? = some key → '.' ∉ key.name.toList := by
    rintro key ⟨⟩
    decide
  obtain ⟨hTables, hPaths, hPlain⟩ := Specification.joinPath_iff_linksOf?_iff_unambiguous
    (Resolver.faithful_of_cache_eq_nil rfl) hDot hCompile
  have hClear := (hPlain (by decide)).2 (by decide)
  have hField : mentorTeamName ∈ mentoredQuery.fields := List.mem_cons_self
  rw [hTables mentorTeamName hField]
  exact (hPaths.mpr hClear _ ⟨mentorTeamName, hField, List.prefix_rfl⟩ _).mpr rfl

/-- A task has a member and a team of its own, related under a name with two underscores. -/
def tasks : RecordSchema Entity :=
  { name := "Task", table := "tasks", primaryKey := some "id"
    fields := [⟨"id", "id", .integer⟩]
    relations := [⟨"member", "member_id", "id", .member⟩,
      ⟨"member__team", "owner_team_id", "id", .team⟩] }

def byTeams : Specification :=
  { filters := [named "member__team.name" "core", named "member.team.name" "edge"] }

/-- The name of the primary key has a dot, so it is also a path, to the key of the team. -/
def slots : RecordSchema Entity :=
  { name := "Slot", table := "slots", primaryKey := some "team.id"
    fields := [⟨"team.id", "team_key", .integer⟩]
    relations := [⟨"team", "team_id", "id", .team⟩] }

/-- The team of the member is looked for under the alias of the team of the task, and a primary key
that is taken for a field of a relation under an alias that is not joined at all. -/
theorem not_joinPath_linksOf? :
    (∃ q r', (byTeams.compile catalog tasks).outcome resolver = (.ok q, r') ∧
      ∃ f ∈ q.fields, ∃ links, tasks.linksOf? catalog f.hops = some links ∧
        ¬ q.JoinPath f.column.table links) ∧
    ∃ q r', (({} : Specification).compile catalog slots).outcome resolver = (.ok q, r') ∧
      ∃ f ∈ q.fields, ∃ links, slots.linksOf? catalog f.hops = some links ∧
        ¬ q.JoinPath f.column.table links := by
  constructor
  · refine ⟨_, _, rfl, _, List.mem_cons_of_mem _ List.mem_cons_self, _, rfl, ?_⟩
    intro hPath
    exact absurd (hPath.exists_mem rfl) (by decide)
  · refine ⟨_, _, rfl, _, List.mem_cons_self, _, rfl, ?_⟩
    intro hPath
    exact absurd (hPath.exists_mem rfl) (by decide)

end Tracker

end RecordFilter
