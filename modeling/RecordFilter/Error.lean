import RecordFilter.Filter.Specification
import RecordFilter.Schema.Basic

/-!
# Errors

Why a filter, a specification or a query fails. Each error carries its cause; `message` words it.
Errors that blame the request itself are validation errors, the others come from the storage.
-/

namespace RecordFilter

inductive ParseFailure where
  | noDateFormat
  | noTimeFormat
  | emptyNumber
  | malformedNumber
  | notFinite
  | booleanForNumber
  /-- The text that names no truth value. -/
  | notBoolean (text : String)
  | notText
deriving DecidableEq

def ParseFailure.message : ParseFailure → String
  | noDateFormat => "no accepted date format matched"
  | noTimeFormat => "no accepted time format matched"
  | emptyNumber => "cannot parse float from empty string"
  | malformedNumber => "invalid float literal"
  | notFinite => "number must be finite"
  | booleanForNumber => "expected a number, got a boolean"
  | notBoolean text => "'" ++ text ++ "' is not a boolean"
  | notText => "expected a string"

inductive ShapeFailure where
  | missing
  | rangeForScalar
  | scalarForRange
deriving DecidableEq

def ShapeFailure.message : ShapeFailure → String
  | missing => "a value is required"
  | rangeForScalar => "expected a single value, got a range"
  | scalarForRange => "expected an object with 'from' and 'to'"

inductive SpecificationFailure where
  /-- Not JSON, or not of the shape of a specification. -/
  | undecodable
  | tooLarge (limit : Nat)
  | tooManyFilters (limit : Nat)
  | blankField
deriving DecidableEq

/-- The wording; decoding failures have none of their own. -/
def SpecificationFailure.message? : SpecificationFailure → Option String
  | undecodable => none
  | tooLarge limit => some ("document exceeds maximum size of " ++ limit.repr ++ " bytes")
  | tooManyFilters limit => some ("maximum " ++ limit.repr ++ " filters allowed")
  | blankField => some "field path must not be empty"

inductive EstimateFailure where
  | noStatistics
  | noEstimators
  /-- A reason given by an estimator of the caller. -/
  | reported (reason : String)
  /-- The database could not answer; it words that itself. -/
  | database
deriving DecidableEq

def EstimateFailure.message? : EstimateFailure → Option String
  | noStatistics => some "no statistics recorded"
  | noEstimators => some "no estimators configured"
  | reported reason => some reason
  | database => none

inductive FilterError where
  /-- A range whose lower end lies after its upper end. -/
  | invalidRange (field low high : String)
  | parse (field : String) (dataType : DataType) (value : String) (cause : ParseFailure)
  | unsupportedMode (field : String) (mode : Mode) (dataType : DataType)
  | typeMismatch (field : String) (dataType : DataType) (kind : ColumnKind)
  | invalidValue (field : String) (mode : Mode) (cause : ShapeFailure)
  | unknownField (record path : String)
  | fieldTooDeep (path : String) (maxDepth : Nat)
  | invalidSpecification (cause : SpecificationFailure)
  | estimate (table : String) (cause : EstimateFailure)
  | database
deriving DecidableEq

namespace FilterError

def isValidation : FilterError → Bool
  | estimate .. | database => false
  | _ => true

def message? : FilterError → Option String
  | invalidRange field low high => some <|
      "Invalid range on '" ++ field ++ "': from (" ++ low ++ ") is after to (" ++ high ++ ")"
  | parse field dataType value cause => some <|
      "Cannot parse " ++ Named.name dataType ++ " value '" ++ value ++ "' for '" ++ field ++
        "': " ++ cause.message
  | unsupportedMode field mode dataType => some <|
      "Mode '" ++ Named.name mode ++ "' is not supported for " ++ Named.name dataType ++
        " filters on '" ++ field ++ "'"
  | typeMismatch field dataType kind => some <|
      "Cannot apply " ++ Named.name dataType ++ " filter to " ++ Named.name kind ++ " field '" ++
        field ++ "'"
  | invalidValue field mode cause => some <|
      "Invalid value for '" ++ field ++ "' (" ++ Named.name mode ++ "): " ++ cause.message
  | unknownField record path => some ("Unknown field '" ++ path ++ "' on " ++ record)
  | fieldTooDeep path maxDepth => some <|
      "Field '" ++ path ++ "' exceeds maximum relation depth of " ++ maxDepth.repr
  | invalidSpecification cause =>
      cause.message?.map ("Invalid filter specification: " ++ ·)
  | estimate table cause =>
      cause.message?.map fun reason =>
        "Row count estimation failed for " ++ table ++ ": " ++ reason
  | database => none

end FilterError

end RecordFilter
