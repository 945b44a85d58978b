import RecordFilter.Named

/-!
# Filter modes, data types and sort directions

A mode says how a field is compared, a data type what it is compared as. Every data type supports
emptiness and equality; the ordered modes need an order, and the modes on parts of a text need
text. The unknown-field policy says what becomes of a path that leads nowhere.
-/

namespace RecordFilter

inductive Logic where
  | and
  | or
deriving DecidableEq

inductive Mode where
  | equal
  | notEqual
  | contains
  | notContains
  | startsWith
  | endsWith
  | isEmpty
  | isNotEmpty
  | greaterThan
  | greaterOrEqual
  | lessThan
  | lessOrEqual
  | range
  | before
  | after
deriving DecidableEq

inductive DataType where
  | text
  | number
  | boolean
  | date
  | time
deriving DecidableEq

inductive Direction where
  | asc
  | desc
deriving DecidableEq

inductive UnknownFieldPolicy where
  /-- Drop the filter, sort key or relation and go on. -/
  | ignore
  /-- Refuse the request. -/
  | reject
deriving DecidableEq

instance : Named Logic where
  all := [.and, .or]
  name
    | .and => "and"
    | .or => "or"
  aliases
    | .and => ["AND"]
    | .or => ["OR"]

instance : Named Mode where
  all := [.equal, .notEqual, .contains, .notContains, .startsWith, .endsWith, .isEmpty,
    .isNotEmpty, .greaterThan, .greaterOrEqual, .lessThan, .lessOrEqual, .range, .before, .after]
  name
    | .equal => "equal"
    | .notEqual => "not-equal"
    | .contains => "contains"
    | .notContains => "not-contains"
    | .startsWith => "starts-with"
    | .endsWith => "ends-with"
    | .isEmpty => "is-empty"
    | .isNotEmpty => "is-not-empty"
    | .greaterThan => "greater-than"
    | .greaterOrEqual => "greater-or-equal"
    | .lessThan => "less-than"
    | .lessOrEqual => "less-or-equal"
    | .range => "range"
    | .before => "before"
    | .after => "after"
  aliases
    | .equal => ["eq"]
    | .notEqual => ["not_equal", "ne"]
    | .notContains => ["not_contains"]
    | .startsWith => ["starts_with"]
    | .endsWith => ["ends_with"]
    | .isEmpty => ["is_empty"]
    | .isNotEmpty => ["is_not_empty"]
    | .greaterThan => ["greater_than", "gt"]
    | .greaterOrEqual => ["greater_or_equal", "gte"]
    | .lessThan => ["less_than", "lt"]
    | .lessOrEqual => ["less_or_equal", "lte"]
    | .contains | .range | .before | .after => []

instance : Named DataType where
  all := [.text, .number, .boolean, .date, .time]
  name
    | .text => "text"
    | .number => "number"
    | .boolean => "boolean"
    | .date => "date"
    | .time => "time"
  aliases
    | .text => ["string"]
    | .boolean => ["bool"]
    | .date => ["datetime"]
    | .number | .time => []

instance : Named Direction where
  all := [.asc, .desc]
  name
    | .asc => "asc"
    | .desc => "desc"
  aliases
    | .asc => ["ASC"]
    | .desc => ["DESC"]

instance : Named UnknownFieldPolicy where
  all := [.ignore, .reject]
  name
    | .ignore => "ignore"
    | .reject => "reject"

namespace Mode

def isNullary : Mode → Bool
  | isEmpty | isNotEmpty => true
  | _ => false

def supports : Mode → DataType → Bool
  | equal, _ | notEqual, _ | isEmpty, _ | isNotEmpty, _ => true
  | contains, t | notContains, t | startsWith, t | endsWith, t => t = .text
  | greaterThan, t | greaterOrEqual, t | lessThan, t | lessOrEqual, t | range, t =>
    t = .number || t = .date || t = .time
  | before, t | after, t => t = .date || t = .time

end Mode

def Direction.apply : Direction → Ordering → Ordering
  | asc, o => o
  | desc, o => o.swap

end RecordFilter
