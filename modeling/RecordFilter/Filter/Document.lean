import RecordFilter.Error
import RecordFilter.Json.Decode
import RecordFilter.Json.Parse
import RecordFilter.Text.Blank

/-!
# Specification documents

A specification is written as a JSON document. Reading one checks its size first, then its shape,
then the number of filters, and last that no filter or sort key has a blank field. What a field
path means is not checked.
-/

namespace RecordFilter

def maxDocumentSize : Nat := 65536

def maxFilters : Nat := 50

namespace Scalar

def toJson : Scalar → Json
  | bool b => .bool b
  | number n => if n.isFinite then .ofNumber n else .null
  | text s => .ofString s

def ofJson? : Json → Option Scalar
  | .bool b => some (bool b)
  | .number n => n.map number
  | .string s => s.map text
  | _ => none

end Scalar

namespace FilterValue

def toJson : FilterValue → Json
  | scalar v => v.toJson
  | range low high => .ofMembers [("from", low.toJson), ("to", high.toJson)]

/-- An operand: a range if it has the shape of one, else a single value. -/
def ofJson? (j : Json) : Option FilterValue :=
  match Json.fields? [["from"], ["to"]] j with
  | some [some low, some high] => do return range (← Scalar.ofJson? low) (← Scalar.ofJson? high)
  | _ => (Scalar.ofJson? j).map scalar

end FilterValue

namespace FieldFilter

def toJson (f : FieldFilter) : Json :=
  .ofMembers [("field", .ofString f.field), ("mode", .ofString (Named.name f.mode)),
    ("data_type", .ofString (Named.name f.dataType)),
    ("value", (f.value.map FilterValue.toJson).getD .null)]

/-- The nesting left for an operand inside the document, the list of filters and the filter. -/
def valueNesting : Nat := Json.maxNesting - 3

/-- An operand, all parts of which must be readable, also those that are skipped. -/
def valueOfJson? (j : Json) : Option FilterValue :=
  if j.isReadable valueNesting then FilterValue.ofJson? j else none

def ofJson? (j : Json) : Option FieldFilter := do
  match ← Json.fields? [["field"], ["mode"], ["data_type", "type"], ["value"]] j with
  | [some field, some mode, some dataType, value] =>
    return { field := ← field.asText?
             mode := ← mode.asChoice?
             dataType := ← dataType.asChoice?
             value := ← Json.optional? valueOfJson? value }
  | _ => none

end FieldFilter

namespace SortField

def toJson (s : SortField) : Json :=
  .ofMembers [("field", .ofString s.field), ("direction", .ofString (Named.name s.direction))]

def ofJson? (j : Json) : Option SortField := do
  match ← Json.fields? [["field"], ["direction"]] j with
  | [some field, direction] =>
    return { field := ← field.asText?
             direction := ← Json.orDefault? Json.asChoice? .asc direction }
  | _ => none

end SortField

namespace Specification

def toJson (s : Specification) : Json :=
  .ofMembers [("logic", .ofString (Named.name s.logic)),
    ("filters", .array (s.filters.map FieldFilter.toJson)),
    ("sort", .array (s.sort.map SortField.toJson)),
    ("preload", .array (s.preload.map Json.ofString))]

def ofJson? (j : Json) : Option Specification := do
  match ← Json.fields? [["logic"], ["filters"], ["sort"], ["preload"]] j with
  | [logic, filters, sort, preload] =>
    return { logic := ← Json.orDefault? Json.asChoice? .and logic
             filters := ← Json.orDefault? (Json.asList? FieldFilter.ofJson?) [] filters
             sort := ← Json.orDefault? (Json.asList? SortField.ofJson?) [] sort
             preload := ← Json.orDefault? (Json.asList? Json.asText?) [] preload }
  | _ => none

def hasBlankField (s : Specification) : Bool :=
  s.filters.any (fun f => Text.isBlankText f.field) ||
    s.sort.any fun k => Text.isBlankText k.field

def read (document : String) : Except FilterError Specification :=
  if maxDocumentSize < document.utf8ByteSize then
    .error (.invalidSpecification (.tooLarge maxDocumentSize))
  else match (Json.parse? document).bind ofJson? with
    | none => .error (.invalidSpecification .undecodable)
    | some s =>
      if maxFilters < s.filters.length then
        .error (.invalidSpecification (.tooManyFilters maxFilters))
      else if s.hasBlankField then .error (.invalidSpecification .blankField)
      else .ok s

end Specification

end RecordFilter
