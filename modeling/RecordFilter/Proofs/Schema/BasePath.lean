import RecordFilter.Schema.Path

/-!
# Paths to fields of the base record

A path without relations has no dots. It leads to the first field of that name, and the names it is
made of never hold a dot themselves.
-/

namespace RecordFilter

namespace Text

theorem notMem_of_mem_splitOnP {cs piece : List Char} {c : Char}
    (h : piece ∈ cs.splitOnP (· == c)) : c ∉ piece := by
  induction cs generalizing piece with
  | nil =>
    rw [List.splitOnP_nil] at h
    rw [List.mem_singleton.mp h]
    exact List.not_mem_nil
  | cons d cs ih =>
    rw [List.splitOnP_cons_eq_if_modifyHead] at h
    split at h
    · rcases List.mem_cons.mp h with rfl | h
      · exact List.not_mem_nil
      · exact ih h
    · rename_i hd
      obtain ⟨first, rest, hSplit⟩ := List.exists_cons_of_ne_nil
        (List.splitOnP_ne_nil (· == c) cs)
      rw [hSplit] at ih h
      rcases List.mem_cons.mp h with rfl | h
      · intro hMem
        rcases List.mem_cons.mp hMem with rfl | hMem
        · exact hd (beq_self_eq_true _)
        · exact ih List.mem_cons_self hMem
      · exact ih (List.mem_cons_of_mem _ h)

theorem notMem_dot_of_mem_splitDots {s piece : String} (h : piece ∈ splitDots s) :
    '.' ∉ piece.toList := by
  obtain ⟨cs, hcs, rfl⟩ := List.mem_map.mp h
  rw [String.toList_ofList]
  exact notMem_of_mem_splitOnP hcs

theorem splitDots_of_notMem_dot {s : String} (h : '.' ∉ s.toList) : splitDots s = [s] := by
  have hSplit : s.toList.splitOnP (· == '.') = [s.toList] := by
    apply List.splitOnP_eq_singleton
    intro c hc
    rw [beq_eq_false_iff_ne]
    rintro rfl
    exact h hc
  rw [splitDots, hSplit, List.map_singleton, String.ofList_toList]

theorem eq_of_splitDots_eq_singleton {s t : String} (h : splitDots s = [t]) : s = t := by
  obtain ⟨cs, hSplit, rfl⟩ := List.map_eq_singleton_iff.mp h
  have hJoined : ['.'].intercalate (s.toList.splitOn '.') = s.toList := List.intercalate_splitOn '.'
  rw [List.splitOn, hSplit] at hJoined
  rw [← String.ofList_toList (s := s), ← hJoined]
  simp [List.intercalate]

end Text

variable {κ : Type} {catalog : Catalog κ} {schema : RecordSchema κ}

theorem RecordSchema.fieldAt?_of_notMem_dot {name : String} (h : '.' ∉ name.toList) :
    schema.fieldAt? catalog name =
      (schema.findField? name).map fun f =>
        { path := name, hops := [], leaf := f.name, kind := f.kind
          column := ⟨schema.table, f.column⟩, joins := [] } := by
  rw [fieldAt?, Text.splitDots_of_notMem_dot h]
  cases hField : schema.findField? name <;> simp [walkRelations, hField]

theorem eq_nil_of_walkRelations {owner : RecordSchema κ} {parentAlias path : String}
    {segments : List String} {walk : RelationWalk κ}
    (h : walkRelations catalog owner parentAlias path segments = some walk)
    (hHops : walk.hops = []) : segments = [] := by
  cases segments with
  | nil => rfl
  | cons segment segments =>
    rw [walkRelations] at h
    obtain ⟨r, -, h⟩ := Option.bind_eq_some_iff.mp h
    obtain ⟨rest, -, h⟩ := Option.bind_eq_some_iff.mp h
    cases h
    cases hHops

theorem RecordSchema.path_eq_leaf_of_hops_eq_nil {path : String} {field : ResolvedField κ}
    (h : schema.fieldAt? catalog path = some field) (hHops : field.hops = []) :
    path = field.leaf := by
  obtain ⟨walk, hWalk, h⟩ := Option.bind_eq_some_iff.mp h
  obtain ⟨last, hLast, h⟩ := Option.bind_eq_some_iff.mp h
  obtain ⟨f, hFind, h⟩ := Option.bind_eq_some_iff.mp h
  cases h
  have hFirst := eq_nil_of_walkRelations hWalk hHops
  have hSegments : Text.splitDots path = [last] := by
    obtain ⟨before, hSegments⟩ := List.getLast?_eq_some_iff.mp hLast
    rw [hSegments, List.dropLast_concat] at hFirst
    rw [hSegments, hFirst, List.nil_append]
  exact (Text.eq_of_splitDots_eq_singleton hSegments).trans (name_of_findField? hFind).symm

theorem RecordSchema.findField?_of_primaryKeyField? {f : FieldDef}
    (h : schema.primaryKeyField? = some f) : schema.findField? f.name = some f := by
  obtain ⟨name, -, hFind⟩ := Option.bind_eq_some_iff.mp h
  rw [name_of_findField? hFind]
  exact hFind

end RecordFilter
