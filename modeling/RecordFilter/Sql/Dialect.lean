import RecordFilter.Calendar.Instant
import RecordFilter.Named
import RecordFilter.Text.Digits

/-!
# SQL dialects

What differs between the databases queries are rendered for: placeholders, folding of text, text
order, the place of nulls in an ordering, and where a row count can be looked up.
-/

namespace RecordFilter

inductive Dialect where
  | sqlite
  | postgres
deriving DecidableEq

instance : Named Dialect where
  all := [.sqlite, .postgres]
  name
    | .sqlite => "sqlite"
    | .postgres => "postgres"

/-- An identifier between double quotes, a quote inside it written twice. -/
def quoteIdentifier (s : String) : String := "\"" ++ Text.replaceChar '"' "\"\"" s ++ "\""

def qualifiedColumn (table column : String) : String :=
  quoteIdentifier table ++ "." ++ quoteIdentifier column

namespace Dialect

def placeholder : Dialect → Nat → String
  | sqlite, _ => "?"
  | postgres, n => "$" ++ n.repr

/-- An expression with its ASCII letters folded. The plain function follows the locale in one of
the dialects, where the letters are replaced one by one instead. -/
def foldText (d : Dialect) (e : String) : String :=
  match d with
  | sqlite => "LOWER(" ++ e ++ ")"
  | postgres =>
    "TRANSLATE(" ++ e ++ ", 'ABCDEFGHIJKLMNOPQRSTUVWXYZ', 'abcdefghijklmnopqrstuvwxyz')"

def binaryOrder (d : Dialect) (e : String) : String :=
  match d with
  | sqlite => e
  | postgres => e ++ " COLLATE \"C\""

def limitOffset (_ : Dialect) (limit offset : Nat) : String :=
  "LIMIT " ++ limit.repr ++ " OFFSET " ++ offset.repr

def estimateRows : Dialect → String
  | sqlite => "SELECT CAST(stat AS INTEGER) FROM sqlite_stat1 WHERE tbl = ? LIMIT 1"
  | postgres =>
    "SELECT GREATEST(reltuples, 0)::BIGINT FROM pg_class WHERE relname = $1 AND relkind = 'r'"

end Dialect

end RecordFilter
