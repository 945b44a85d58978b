import RecordFilter.Filter.Document
import RecordFilter.Proofs.Json.Scanning

/-!
# Specifications read back

The document of a specification is read as the specification itself, provided that its operands hold
no reals and no unsigned integers that would fit signed ones. What else can stand in the way are the
limits of reading: the size of the document, the number of filters and blank fields.
-/

namespace RecordFilter

namespace Json

theorem collectFields?_cons {keys : List (List String)} {k : String} {i : Nat}
    (h : keys.findIdx? (·.contains k) = some i) (found : List (Option Json)) (j : Json)
    (ms : List (Option String × Json)) :
    collectFields? keys found ((some k, j) :: ms) =
      (putField? i j found).bind fun found => collectFields? keys found ms := by
  rw [collectFields?, h]

theorem collectFields?_zip {keys : List (List String)} {names : List String}
    (done : List Json) {values : List Json} (hLength : values.length = names.length)
    (hKeys : names.map (fun k => keys.findIdx? (·.contains k)) =
      (List.range' done.length names.length).map some) :
    collectFields? keys (done.map some ++ names.map fun _ => none)
        ((names.zip values).map fun (k, v) => (some k, v)) =
      some ((done ++ values).map some) := by
  induction names generalizing done values with
  | nil =>
    cases List.length_eq_zero_iff.mp hLength
    simp [collectFields?]
  | cons name names ih =>
    cases values with
    | nil => cases hLength
    | cons v values =>
      rw [List.length_cons, List.range'_succ, List.map_cons, List.map_cons,
        List.cons.injEq] at hKeys
      obtain ⟨hFirst, hRest⟩ := hKeys
      have hPut : putField? done.length v (done.map some ++ (name :: names).map fun _ => none) =
          some ((done ++ [v]).map some ++ names.map fun _ => none) := by
        simp [putField?]
      refine (collectFields?_cons hFirst _ _ _).trans ?_
      rw [hPut, Option.bind_some]
      refine (ih (done ++ [v]) (Nat.succ.inj hLength) ?_).trans ?_
      · rw [hRest, List.length_append]
        rfl
      · rw [List.append_assoc]
        rfl

theorem fields?_ofMembers (keys : List (List String)) (names : List String)
    (hKeys : names.map (fun k => keys.findIdx? (·.contains k)) =
      (List.range keys.length).map some)
    (values : List Json) (hLength : values.length = names.length) :
    fields? keys (ofMembers (names.zip values)) = some (values.map some) := by
  have hCount : names.length = keys.length := by simpa using congrArg List.length hKeys
  rw [List.range_eq_range', ← hCount] at hKeys
  have hNone : (keys.map fun _ => (none : Option Json)) = names.map fun _ => none := by
    rw [List.map_const', List.map_const', hCount]
  change collectFields? keys (keys.map fun _ => none) _ = _
  rw [hNone]
  exact collectFields?_zip [] hLength hKeys

theorem asList?_map {α : Type} {decode : Json → Option α} {encode : α → Json} {items : List α}
    (h : ∀ a ∈ items, decode (encode a) = some a) :
    asList? decode (.array (items.map encode)) = some items := by
  rw [asList?]
  induction items with
  | nil => rfl
  | cons a items ih =>
    rw [List.map_cons, List.mapM_cons, h a List.mem_cons_self,
      ih fun b hb => h b (List.mem_cons_of_mem _ hb)]
    rfl

end Json

def Named.ReadsBack (α : Type) [Named α] : Prop := ∀ a : α, Named.ofName? (Named.name a) = some a

theorem readsBack_logic : Named.ReadsBack Logic := by
  intro a
  cases a <;> rfl

theorem readsBack_mode : Named.ReadsBack Mode := by
  intro a
  cases a <;> rfl

theorem readsBack_dataType : Named.ReadsBack DataType := by
  intro a
  cases a <;> rfl

theorem readsBack_direction : Named.ReadsBack Direction := by
  intro a
  cases a <;> rfl

theorem Named.ReadsBack.asChoice?_name {α : Type} [Named α] (h : Named.ReadsBack α) (a : α) :
    Json.asChoice? (.ofString (Named.name a)) = some a := h a

/-- The scalar comes back from its document: it is no real, whose document may be rounded, and no
unsigned integer that is read as a signed one. -/
def Scalar.isPlain : Scalar → Bool
  | number n => n.isCanonical
  | _ => true

def FilterValue.isPlain : FilterValue → Bool
  | scalar v => v.isPlain
  | range low high => low.isPlain && high.isPlain

theorem Number.isFinite_of_isCanonical {n : Number} (h : n.isCanonical = true) :
    n.isFinite = true := by
  cases n with
  | real x => cases h
  | _ => rfl

theorem Scalar.toJson_number {n : Number} (h : n.isCanonical = true) :
    (number n).toJson = .ofNumber n := if_pos (Number.isFinite_of_isCanonical h)

theorem Scalar.ofJson?_toJson {v : Scalar} (h : v.isPlain = true) :
    Scalar.ofJson? v.toJson = some v := by
  cases v with
  | number n =>
    rw [toJson_number h]
    rfl
  | _ => rfl

theorem Scalar.isReadable_toJson {v : Scalar} (h : v.isPlain = true) (depth : Nat) :
    v.toJson.isReadable depth = true := by
  cases v with
  | number n =>
    rw [toJson_number h]
    rfl
  | _ => rfl

theorem Scalar.fields?_toJson (keys : List (List String)) (v : Scalar) :
    Json.fields? keys v.toJson = none := by
  cases v with
  | number n =>
    rw [toJson]
    split <;> rfl
  | _ => rfl

theorem FilterValue.ofJson?_toJson {v : FilterValue} (h : v.isPlain = true) :
    FilterValue.ofJson? v.toJson = some v := by
  cases v with
  | scalar v =>
    rw [ofJson?, toJson, Scalar.fields?_toJson, Scalar.ofJson?_toJson h]
    rfl
  | range low high =>
    obtain ⟨hLow, hHigh⟩ := Bool.and_eq_true_iff.mp h
    have hFields : Json.fields? [["from"], ["to"]] (range low high).toJson =
        some [some low.toJson, some high.toJson] :=
      Json.fields?_ofMembers [["from"], ["to"]] ["from", "to"] (by decide)
        [low.toJson, high.toJson] rfl
    rw [ofJson?, hFields]
    simp [Scalar.ofJson?_toJson hLow, Scalar.ofJson?_toJson hHigh]

theorem FilterValue.isReadable_toJson {v : FilterValue} (h : v.isPlain = true) (depth : Nat) :
    v.toJson.isReadable (depth + 1) = true := by
  cases v with
  | scalar v => exact Scalar.isReadable_toJson h _
  | range low high =>
    obtain ⟨hLow, hHigh⟩ := Bool.and_eq_true_iff.mp h
    simp [toJson, Json.ofMembers, Json.isReadable, Json.membersReadable,
      Scalar.isReadable_toJson hLow, Scalar.isReadable_toJson hHigh]

theorem FilterValue.toJson_ne_null {v : FilterValue} (h : v.isPlain = true) :
    v.toJson ≠ .null := by
  cases v with
  | scalar v =>
    cases v with
    | number n =>
      rw [toJson, Scalar.toJson_number h]
      exact nofun
    | _ => exact nofun
  | range low high => exact nofun

theorem FieldFilter.valueOfJson?_toJson {v : FilterValue} (h : v.isPlain = true) :
    valueOfJson? v.toJson = some v := by
  have hReadable : v.toJson.isReadable valueNesting = true := FilterValue.isReadable_toJson h 123
  rw [valueOfJson?, if_pos hReadable, FilterValue.ofJson?_toJson h]

theorem FieldFilter.optional?_valueOfJson? {value : Option FilterValue}
    (h : ∀ v ∈ value, v.isPlain = true) :
    Json.optional? valueOfJson? (some ((value.map FilterValue.toJson).getD .null)) =
      some value := by
  cases value with
  | none => rfl
  | some v =>
    have hNull := FilterValue.toJson_ne_null (h v rfl)
    rw [Option.map_some, Option.getD_some, Json.optional?, valueOfJson?_toJson (h v rfl)]
    · rfl
    · simpa using hNull

theorem FieldFilter.ofJson?_toJson {f : FieldFilter} (h : ∀ v ∈ f.value, v.isPlain = true) :
    FieldFilter.ofJson? f.toJson = some f := by
  have hFields : Json.fields? [["field"], ["mode"], ["data_type", "type"], ["value"]] f.toJson =
      some [some (.ofString f.field), some (.ofString (Named.name f.mode)),
        some (.ofString (Named.name f.dataType)),
        some ((f.value.map FilterValue.toJson).getD .null)] :=
    Json.fields?_ofMembers _ ["field", "mode", "data_type", "value"] (by decide)
      [.ofString f.field, .ofString (Named.name f.mode), .ofString (Named.name f.dataType),
        (f.value.map FilterValue.toJson).getD .null] rfl
  have hField : (Json.ofString f.field).asText? = some f.field := rfl
  rw [ofJson?, hFields]
  simp [hField, readsBack_mode.asChoice?_name, readsBack_dataType.asChoice?_name,
    optional?_valueOfJson? h]

theorem SortField.ofJson?_toJson (k : SortField) : SortField.ofJson? k.toJson = some k := by
  have hFields : Json.fields? [["field"], ["direction"]] k.toJson =
      some [some (.ofString k.field), some (.ofString (Named.name k.direction))] :=
    Json.fields?_ofMembers _ ["field", "direction"] (by decide)
      [.ofString k.field, .ofString (Named.name k.direction)] rfl
  have hField : (Json.ofString k.field).asText? = some k.field := rfl
  rw [ofJson?, hFields]
  simp [hField, Json.orDefault?, readsBack_direction.asChoice?_name]

namespace Specification

variable {s : Specification}

theorem ofJson?_toJson (h : ∀ f ∈ s.filters, ∀ v ∈ f.value, v.isPlain = true) :
    Specification.ofJson? s.toJson = some s := by
  have hFields : Json.fields? [["logic"], ["filters"], ["sort"], ["preload"]] s.toJson =
      some [some (.ofString (Named.name s.logic)),
        some (.array (s.filters.map FieldFilter.toJson)),
        some (.array (s.sort.map SortField.toJson)), some (.array (s.preload.map Json.ofString))] :=
    Json.fields?_ofMembers _ ["logic", "filters", "sort", "preload"] (by decide)
      [.ofString (Named.name s.logic), .array (s.filters.map FieldFilter.toJson),
        .array (s.sort.map SortField.toJson), .array (s.preload.map Json.ofString)] rfl
  have hFilters : Json.asList? FieldFilter.ofJson? (.array (s.filters.map FieldFilter.toJson)) =
      some s.filters := Json.asList?_map fun f hf => FieldFilter.ofJson?_toJson (h f hf)
  have hSort : Json.asList? SortField.ofJson? (.array (s.sort.map SortField.toJson)) =
      some s.sort := Json.asList?_map fun k _ => SortField.ofJson?_toJson k
  have hPreload : Json.asList? Json.asText? (.array (s.preload.map Json.ofString)) =
      some s.preload := Json.asList?_map fun _ _ => rfl
  rw [ofJson?, hFields]
  simp [Json.orDefault?, readsBack_logic.asChoice?_name, hFilters, hSort, hPreload]

end Specification

theorem Json.isPlain_ofString (s : String) : (ofString s).IsPlain := isPlain_of_token rfl rfl

theorem Scalar.isPlain_toJson {v : Scalar} (h : v.isPlain = true) : v.toJson.IsPlain := by
  cases v with
  | bool b => exact Json.isPlain_of_token rfl rfl
  | number n =>
    rw [toJson_number h]
    exact Json.isPlain_of_token rfl h
  | text s => exact Json.isPlain_ofString s

theorem FilterValue.isPlain_toJson {v : FilterValue} (h : v.isPlain = true) :
    v.toJson.IsPlain := by
  cases v with
  | scalar v => exact Scalar.isPlain_toJson h
  | range low high =>
    obtain ⟨hLow, hHigh⟩ := Bool.and_eq_true_iff.mp h
    apply Json.isPlain_ofMembers
    simp only [List.forall_mem_cons, List.not_mem_nil]
    exact ⟨Scalar.isPlain_toJson hLow, Scalar.isPlain_toJson hHigh, nofun⟩

theorem FieldFilter.isPlain_toJson {f : FieldFilter} (h : ∀ v ∈ f.value, v.isPlain = true) :
    f.toJson.IsPlain := by
  have hValue : ((f.value.map FilterValue.toJson).getD .null).IsPlain := by
    cases hOperand : f.value with
    | none => exact Json.isPlain_of_token rfl rfl
    | some v => exact FilterValue.isPlain_toJson (h v hOperand)
  apply Json.isPlain_ofMembers
  simp only [List.forall_mem_cons, List.not_mem_nil]
  exact ⟨Json.isPlain_ofString _, Json.isPlain_ofString _, Json.isPlain_ofString _, hValue, nofun⟩

theorem SortField.isPlain_toJson (k : SortField) : k.toJson.IsPlain := by
  apply Json.isPlain_ofMembers
  simp only [List.forall_mem_cons, List.not_mem_nil]
  exact ⟨Json.isPlain_ofString _, Json.isPlain_ofString _, nofun⟩

namespace Specification

variable {s : Specification}

theorem isPlain_toJson (h : ∀ f ∈ s.filters, ∀ v ∈ f.value, v.isPlain = true) :
    s.toJson.IsPlain := by
  apply Json.isPlain_ofMembers
  simp only [List.forall_mem_cons, List.not_mem_nil]
  refine ⟨Json.isPlain_ofString _, Json.isPlain_array ?_, Json.isPlain_array ?_,
    Json.isPlain_array ?_, nofun⟩
  · exact List.forall_mem_map.mpr fun f hf => FieldFilter.isPlain_toJson (h f hf)
  · exact List.forall_mem_map.mpr fun k _ => SortField.isPlain_toJson k
  · exact List.forall_mem_map.mpr fun path _ => Json.isPlain_ofString path

theorem hasBlankField_eq_false_iff :
    s.hasBlankField = false ↔ (∀ f ∈ s.filters, Text.trim f.field.toList ≠ []) ∧
      ∀ k ∈ s.sort, Text.trim k.field.toList ≠ [] := by
  rw [hasBlankField, Bool.or_eq_false_iff, List.any_eq_false, List.any_eq_false]
  simp [Text.isBlankText]

theorem read_eq_ok_iff_of_decoded {document : String}
    (h : (Json.parse? document).bind ofJson? = some s) :
    read document = .ok s ↔
      document.utf8ByteSize ≤ maxDocumentSize ∧ s.filters.length ≤ maxFilters ∧
        s.hasBlankField = false := by
  rw [read, h]
  by_cases hSize : maxDocumentSize < document.utf8ByteSize
  · simp [hSize]
  · by_cases hFilters : maxFilters < s.filters.length
    · simp [hSize, hFilters]
    · have hWithin := And.intro (Nat.le_of_not_lt hSize) (Nat.le_of_not_lt hFilters)
      by_cases hBlank : s.hasBlankField = true <;> simp [hSize, hFilters, hWithin, hBlank]

/-- The document of a specification with plain operands is read as that specification exactly if it
is within the limits: 65536 bytes, 50 filters, and no filter or sort key with a blank field. -/
theorem read_toJson_text_eq_ok_iff
    (h : ∀ f ∈ s.filters, ∀ v, f.value = some v → v.isPlain = true) :
    read s.toJson.text = .ok s ↔
      s.toJson.text.utf8ByteSize ≤ 65536 ∧ s.filters.length ≤ 50 ∧
        (∀ f ∈ s.filters, Text.trim f.field.toList ≠ []) ∧
        ∀ k ∈ s.sort, Text.trim k.field.toList ≠ [] := by
  have hDecoded : (Json.parse? s.toJson.text).bind ofJson? = some s := by
    rw [Json.parse?_text (isPlain_toJson h), Option.bind_some, ofJson?_toJson h]
  rw [read_eq_ok_iff_of_decoded hDecoded, hasBlankField_eq_false_iff]
  rfl

end Specification

namespace Invoices

/-- Text with escapes and a control character, both ends of the 64-bit integers, no operand. -/
def overdue : Specification :=
  { logic := .or
    filters := [⟨"buyer.\"name\"", .equal, .text, some (.scalar (.text "\\\x01\té😀"))⟩,
      ⟨"total", .range, .number, some (.range (.number (.int Int64.minValue))
        (.number (.nat 18446744073709551615)))⟩,
      ⟨"paid", .isEmpty, .boolean, none⟩]
    sort := [⟨"due", .desc⟩]
    preload := ["", "buyer.région"] }

theorem overdue_read_back :
    (∀ f ∈ overdue.filters, ∀ v, f.value = some v → v.isPlain = true) ∧
      Specification.read overdue.toJson.text = .ok overdue := by
  have hPlain : ∀ f ∈ overdue.filters, ∀ v, f.value = some v → v.isPlain = true := by
    have hEach : ∀ f ∈ overdue.filters, f.value.all FilterValue.isPlain = true := by decide
    intro f hf v hv
    have hValue := hEach f hf
    rw [hv] at hValue
    exact hValue
  refine ⟨hPlain, (Specification.read_toJson_text_eq_ok_iff hPlain).mpr ?_⟩
  have hBytes (cs : List Char) :
      (String.ofList cs).utf8ByteSize = (cs.flatMap String.utf8EncodeChar).length :=
    List.size_toByteArray
  refine ⟨?_, by decide, by decide, by decide⟩
  rw [Json.text, hBytes]
  decide +kernel

end Invoices

end RecordFilter
