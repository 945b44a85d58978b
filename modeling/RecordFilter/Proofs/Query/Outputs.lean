import RecordFilter.Proofs.Query.FromClause
import RecordFilter.Proofs.Sql.SelectList
import RecordFilter.Sql.Lowering

/-!
# Output names

A column of a joined table comes out under the path of its relation and its own name, the name that
mappers of rows look up. Another column comes out under it too only if its name goes on as the path
of a relation does: without double underscores in the names of columns, and underscores in front of
them, every joined column has a name of its own.
-/

namespace RecordFilter

open Sql

variable {κ : Type}

theorem toList_projectionAlias (path column : String) :
    (projectionAlias path column).toList = underscored path ++ '_' :: '_' :: column.toList := by
  simp [projectionAlias, Text.replaceChar, underscored, aliasSeparator]

/-- The column of the first join spells how the alias of the second goes on from that of the first,
and then the column of the second. -/
def JoinSpec.Overlaps (j : JoinSpec κ) (column : String) (k : JoinSpec κ) (column' : String) :
    Prop :=
  ∃ rest, rest ≠ [] ∧ k.tableAlias.toList = j.tableAlias.toList ++ rest ∧
    '_' :: '_' :: column.toList = rest ++ '_' :: '_' :: column'.toList

/-- No separator in the name, and none that begins before it. -/
def IsPlainColumn (column : String) : Prop :=
  ¬ ['_', '_'] <:+: column.toList ∧ column.toList.head? ≠ some '_'

instance (column : String) : Decidable (IsPlainColumn column) := inferInstanceAs (Decidable (_ ∧ _))

section
variable {j k : JoinSpec κ} {column column' : String}

theorem JoinSpec.Overlaps.not_isPlainColumn (h : j.Overlaps column k column') :
    ¬ IsPlainColumn column := by
  rintro ⟨hInfix, hHead⟩
  obtain ⟨rest, hRest, -, hColumns⟩ := h
  match rest with
  | [] => exact hRest rfl
  -- An underscore more on the path is one less in front of the column.
  | [c] =>
    simp only [List.cons_append, List.nil_append, List.cons.injEq, true_and] at hColumns
    rw [hColumns.2] at hHead
    exact hHead rfl
  | c :: d :: rest =>
    simp only [List.cons_append, List.cons.injEq] at hColumns
    apply hInfix
    exact ⟨rest, column'.toList, by rw [hColumns.2.2]; simp⟩

variable (hj : j.tableAlias = joinAlias j.relationPath)
  (hk : k.tableAlias = joinAlias k.relationPath)
include hj hk

theorem JoinSpec.Overlaps.projectionAlias_eq (h : j.Overlaps column k column') :
    projectionAlias j.relationPath column = projectionAlias k.relationPath column' := by
  obtain ⟨rest, -, hAlias, hColumns⟩ := h
  rw [hj, hk, toList_joinAlias, toList_joinAlias] at hAlias
  simp only [List.cons_append, List.cons.injEq, true_and] at hAlias
  rw [← String.toList_inj, toList_projectionAlias, toList_projectionAlias, hAlias, hColumns,
    List.append_assoc]

theorem JoinSpec.overlaps_of_projectionAlias_eq
    (h : projectionAlias j.relationPath column = projectionAlias k.relationPath column') :
    (j.tableAlias = k.tableAlias ∧ column = column') ∨ j.Overlaps column k column' ∨
      k.Overlaps column' j column := by
  rw [← String.toList_inj, toList_projectionAlias, toList_projectionAlias,
    List.append_eq_append_iff] at h
  have hSame {path path' : String} {a b : String} (hPath : underscored path = underscored path')
      (hColumn : '_' :: '_' :: a.toList = '_' :: '_' :: b.toList) :
      joinAlias path = joinAlias path' ∧ a = b := by
    constructor
    · rw [← String.toList_inj, toList_joinAlias, toList_joinAlias, hPath]
    · simpa [String.toList_inj] using hColumn
  simp only [Overlaps, hj, hk, toList_joinAlias, List.cons_append, List.cons.injEq, true_and]
  -- Either the paths end together, or one of them goes on into the column of the other.
  rcases h with ⟨rest, hPath, hColumn⟩ | ⟨rest, hPath, hColumn⟩ <;> by_cases hRest : rest = []
  · subst hRest
    rw [List.append_nil] at hPath
    exact .inl (hSame hPath.symm hColumn)
  · exact .inr (.inl ⟨rest, hRest, hPath, hColumn⟩)
  · subst hRest
    rw [List.append_nil] at hPath
    exact .inl (hSame hPath hColumn.symm)
  · exact .inr (.inr ⟨rest, hRest, hPath, hColumn⟩)

end

def JoinSpec.item (j : JoinSpec κ) (f : FieldDef) : SelectItem :=
  ⟨⟨j.tableAlias, f.column⟩, projectionAlias j.relationPath f.column⟩

/-- No other column comes out under the name of the item. -/
def Sql.SelectItem.Owns (i : SelectItem) (columns : List String) (items : List SelectItem) : Prop :=
  i.output ∉ columns ∧ ∀ k ∈ items, k.output = i.output → k.column = i.column

theorem mem_items_iff {joins : List (JoinSpec κ)} {i : SelectItem} :
    i ∈ joins.flatMap JoinSpec.items ↔ ∃ j ∈ joins, ∃ f ∈ j.schema.fields, j.item f = i := by
  simp only [List.mem_flatMap, JoinSpec.items, List.mem_map, JoinSpec.item]

theorem forall_column_eq_iff_not_overlaps {joins : List (JoinSpec κ)}
    (hSpelled : ∀ j ∈ joins, j.tableAlias = joinAlias j.relationPath) {j : JoinSpec κ}
    (hj : j ∈ joins) (f : FieldDef) :
    (∀ i ∈ joins.flatMap JoinSpec.items, i.output = (j.item f).output →
        i.column = (j.item f).column) ↔
      ∀ k ∈ joins, ∀ g ∈ k.schema.fields,
        ¬ j.Overlaps f.column k g.column ∧ ¬ k.Overlaps g.column j f.column := by
  have hLonger {i k : JoinSpec κ} {a b : String} (h : i.Overlaps a k b) :
      i.tableAlias ≠ k.tableAlias := by
    obtain ⟨rest, hRest, hAlias, -⟩ := h
    intro hSame
    rw [hSame] at hAlias
    exact hRest (List.append_right_eq_self.mp hAlias.symm)
  constructor
  · intro hOwns k hk g hg
    have hAlias (hName : (k.item g).output = (j.item f).output) : k.tableAlias = j.tableAlias :=
      congrArg ColumnRef.table (hOwns _ (mem_items_iff.mpr ⟨k, hk, g, hg, rfl⟩) hName)
    constructor
    · intro hOver
      have hName := hOver.projectionAlias_eq (hSpelled j hj) (hSpelled k hk)
      exact hLonger hOver (hAlias hName.symm).symm
    · intro hOver
      have hName := hOver.projectionAlias_eq (hSpelled k hk) (hSpelled j hj)
      exact hLonger hOver (hAlias hName)
  · intro hApart i hi hName
    obtain ⟨k, hk, g, hg, rfl⟩ := mem_items_iff.mp hi
    obtain ⟨hForth, hBack⟩ := hApart k hk g hg
    rcases JoinSpec.overlaps_of_projectionAlias_eq (hSpelled k hk) (hSpelled j hj) hName with
      ⟨hAlias, hColumn⟩ | hOver | hOver
    · simp only [JoinSpec.item, hAlias, hColumn]
    · exact absurd hOver hBack
    · exact absurd hOver hForth

namespace Specification

open Resolving

variable {catalog : Catalog κ} {schema : RecordSchema κ} {spec : Specification}
  {q : CompiledQuery κ} {r r' : Resolver κ}

theorem spelled_of_compile (hReachable : r.Reachable catalog)
    (h : (spec.compile catalog schema).outcome r = (.ok q, r')) :
    ∀ j ∈ q.joins, j.tableAlias = joinAlias j.relationPath := by
  obtain ⟨chains, hJoins, hChains⟩ := exists_chains_of_compile hReachable h
  intro j hj
  rw [hJoins] at hj
  obtain ⟨c, hc, hj⟩ := List.mem_flatMap.mp (mem_of_mem_newJoins hj)
  exact (hChains c hc).1.spelled j hj

/-- Every column of every join is selected under the name of its path. No other column comes out
under that name unless one column spells the way to another, or a column of the base table is called
so. Among plain names that never happens. -/
theorem joined_columns_own_names (hReachable : r.Reachable catalog)
    (h : (spec.compile catalog schema).outcome r = (.ok q, r')) (d : Dialect) :
    ∃ items, readSelect? (q.toSql d).selectText = some (schema.table, items) ∧
      ∀ j ∈ q.joins, ∀ f ∈ j.schema.fields, j.item f ∈ items ∧
        ((j.item f).Owns (schema.fields.map (·.column)) items ↔
          (∀ g ∈ schema.fields, g.column ≠ projectionAlias j.relationPath f.column) ∧
            ∀ k ∈ q.joins, ∀ g ∈ k.schema.fields,
              ¬ j.Overlaps f.column k g.column ∧ ¬ k.Overlaps g.column j f.column) ∧
        ((∀ g ∈ schema.fields, ¬ ['_', '_'] <:+: g.column.toList) →
          (∀ k ∈ q.joins, ∀ g ∈ k.schema.fields, IsPlainColumn g.column) →
            (j.item f).Owns (schema.fields.map (·.column)) items) := by
  obtain rfl := schema_of_compile h
  have hSpelled := spelled_of_compile hReachable h
  refine ⟨_, Sql.Query.readSelect?_selectText (q.toSql d), ?_⟩
  intro j hj f hf
  have hItem : j.item f ∈ (q.toSql d).items := mem_items_iff.mpr ⟨j, hj, f, hf, rfl⟩
  have hOwns : (j.item f).Owns (q.schema.fields.map (·.column)) (q.toSql d).items ↔
      (∀ g ∈ q.schema.fields, g.column ≠ projectionAlias j.relationPath f.column) ∧
        ∀ k ∈ q.joins, ∀ g ∈ k.schema.fields,
          ¬ j.Overlaps f.column k g.column ∧ ¬ k.Overlaps g.column j f.column := by
    refine and_congr ?_ (forall_column_eq_iff_not_overlaps hSpelled hj f)
    simp only [List.mem_map, not_exists, not_and, JoinSpec.item, ne_eq]
  refine ⟨hItem, hOwns, ?_⟩
  intro hBase hPlain
  rw [hOwns]
  constructor
  · intro g hg hName
    apply hBase g hg
    rw [hName, toList_projectionAlias]
    exact ⟨underscored j.relationPath, f.column.toList, by simp⟩
  · intro k hk g hg
    constructor
    · intro hOver
      exact hOver.not_isPlainColumn (hPlain j hj f hf)
    · intro hOver
      exact hOver.not_isPlainColumn (hPlain k hk g hg)

end Specification

namespace Tracker

theorem outputs_withTeams :
    ∃ q r', (withTeams.compile catalog boards).outcome resolver = (.ok q, r') ∧
      ∃ items, readSelect? (q.toSql .sqlite).selectText = some ("boards", items) ∧
        ∀ j ∈ q.joins, ∀ f ∈ j.schema.fields, j.item f ∈ items ∧ (j.item f).Owns ["id"] items := by
  have hReachable : resolver.Reachable catalog := .fresh rfl
  have hCompile : (withTeams.compile catalog boards).outcome resolver = (.ok _, _) := rfl
  obtain ⟨items, hItems, hRead⟩ :=
    Specification.joined_columns_own_names hReachable hCompile .sqlite
  refine ⟨_, _, hCompile, items, hItems, fun j hj f hf => ?_⟩
  obtain ⟨hItem, -, hPlain⟩ := hRead j hj f hf
  exact ⟨hItem, hPlain (by decide) (by decide)⟩

/-- A task has a column of its own under the name of a column of its team. -/
def labelled : RecordSchema Entity :=
  { name := "Task", table := "tasks", primaryKey := some "id"
    fields := [⟨"id", "id", .integer⟩, ⟨"team_label", "team__name", .text⟩]
    relations := [⟨"team", "team_id", "id", .team⟩] }

/-- The label of a task and the name of its team come out under one name. -/
theorem not_owns_labelled :
    ∃ q r', (({ preload := ["team"] } : Specification).compile catalog labelled).outcome resolver =
        (.ok q, r') ∧
      ∃ items, readSelect? (q.toSql .sqlite).selectText = some ("tasks", items) ∧
        ∃ j ∈ q.joins, ∃ f ∈ j.schema.fields, j.item f ∈ items ∧
          (∃ g ∈ labelled.fields, g.column = projectionAlias j.relationPath f.column) ∧
          ¬ (j.item f).Owns (labelled.fields.map (·.column)) items := by
  refine ⟨_, _, rfl, _, Sql.Query.readSelect?_selectText _, _, List.mem_cons_self,
    ⟨"name", "name", .text⟩, ?_, ?_, ?_, ?_⟩
  · decide
  · decide
  · exact ⟨⟨"team_label", "team__name", .text⟩, by decide, by decide⟩
  · rintro ⟨hBase, -⟩
    exact hBase (by decide)

end Tracker

end RecordFilter
