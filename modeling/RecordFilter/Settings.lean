import RecordFilter.Filter.Mode
import RecordFilter.Json.Decode
import RecordFilter.Json.Parse
import RecordFilter.Page
import RecordFilter.Text.Blank
import RecordFilter.Text.Digits

/-!
# Settings

The settings of an engine: built-in values, replaced by those of a JSON file, replaced by those of
environment variables. Every step ends with the same check.
-/

namespace RecordFilter

structure Settings where
  /-- The largest number of segments in a field path. -/
  maxDepth : Nat := 3
  /-- The page size where a request names none. -/
  defaultPageSize : Nat := 20
  /-- The largest estimated row count that is evaluated in memory. -/
  hybridThreshold : Nat := 10000
  /-- The least number of records that is evaluated in parallel. -/
  parallelMinRecords : Nat := 4096
  unknownFields : UnknownFieldPolicy := .ignore
deriving DecidableEq

/-- The settings of a file; a missing one leaves the setting as it is. -/
structure SettingsFile where
  maxDepth : Option Nat := none
  defaultPageSize : Option Nat := none
  hybridThreshold : Option Nat := none
  parallelMinRecords : Option Nat := none
  unknownFields : Option UnknownFieldPolicy := none

inductive SettingsError where
  | zeroDepth
  | zeroPageSize
  /-- An environment variable whose value cannot be read. -/
  | badOverride (variableName value : String)
deriving DecidableEq

def SettingsError.message : SettingsError → String
  | zeroDepth => "max_depth must be at least 1"
  | zeroPageSize => "default_page_size must be at least 1"
  | badOverride variableName value => "Invalid value for " ++ variableName ++ ": " ++ value

namespace SettingsFile

/-- The settings of a JSON object. Other keys are allowed, but what stands under them must be
readable. -/
def ofJson? (j : Json) : Option SettingsFile := do
  let .object _ := j | none
  if !j.isReadable Json.maxNesting then none
  let keys := ["max_depth", "default_page_size", "hybrid_threshold", "parallel_min_records",
    "unknown_fields"]
  match ← j.fields? (keys.map fun k => [k]) with
  | [maxDepth, defaultPageSize, hybridThreshold, parallelMinRecords, unknownFields] =>
    let word := Json.asNat? (wordMax + 1)
    return { maxDepth := ← Json.optional? word maxDepth
             defaultPageSize := ← Json.optional? word defaultPageSize
             hybridThreshold := ← Json.optional? word hybridThreshold
             parallelMinRecords := ← Json.optional? word parallelMinRecords
             unknownFields := ← Json.optional? Json.asChoice? unknownFields }
  | _ => none

def read? (document : String) : Option SettingsFile := (Json.parse? document).bind ofJson?

end SettingsFile

namespace Settings

def validate (s : Settings) : Except SettingsError Settings :=
  if s.maxDepth = 0 then .error .zeroDepth
  else if s.defaultPageSize = 0 then .error .zeroPageSize
  else .ok s

def ofFile (f : SettingsFile) : Except SettingsError Settings :=
  let built : Settings := {}
  validate
    { maxDepth := f.maxDepth.getD built.maxDepth
      defaultPageSize := f.defaultPageSize.getD built.defaultPageSize
      hybridThreshold := f.hybridThreshold.getD built.hybridThreshold
      parallelMinRecords := f.parallelMinRecords.getD built.parallelMinRecords
      unknownFields := f.unknownFields.getD built.unknownFields }

def readWord? (cs : List Char) : Option Nat := (Text.readUnsigned? cs).filter (· ≤ wordMax)

def readFlag? (cs : List Char) : Option Bool :=
  if cs = "true".toList then some true else if cs = "false".toList then some false else none

def override {α : Type} (environment : String → Option String) (variableName : String)
    (read : List Char → Option α) (present : α) : Except SettingsError α :=
  match environment variableName with
  | none => .ok present
  | some value => match read (Text.trim value.toList) with
    | some a => .ok a
    | none => .error (.badOverride variableName value)

def withOverrides (s : Settings) (environment : String → Option String) :
    Except SettingsError Settings := do
  let maxDepth ← override environment "FILTERKIT_MAX_DEPTH" readWord? s.maxDepth
  let defaultPageSize ← override environment "FILTERKIT_PAGE_SIZE" readWord? s.defaultPageSize
  let hybridThreshold ←
    override environment "FILTERKIT_HYBRID_THRESHOLD" readWord? s.hybridThreshold
  let parallelMinRecords ←
    override environment "FILTERKIT_PARALLEL_MIN_RECORDS" readWord? s.parallelMinRecords
  let strict ←
    override environment "FILTERKIT_STRICT_FIELDS" readFlag? (s.unknownFields = .reject)
  validate
    { maxDepth, defaultPageSize, hybridThreshold, parallelMinRecords
      unknownFields := if strict then .reject else .ignore }

def toJson (s : Settings) : Json :=
  let word (n : Nat) : Json := .number (Number.ofInteger? n)
  .ofMembers [("max_depth", word s.maxDepth), ("default_page_size", word s.defaultPageSize),
    ("hybrid_threshold", word s.hybridThreshold),
    ("parallel_min_records", word s.parallelMinRecords),
    ("unknown_fields", .ofString (Named.name s.unknownFields))]

end Settings

end RecordFilter
