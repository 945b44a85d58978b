import RecordFilter.Engine
import RecordFilter.Filter.Document
import RecordFilter.Json.Print
import RecordFilter.Proofs.Number.Rounded
import RecordFilter.Proofs.Condition.Answer
import RecordFilter.Proofs.Condition.Compile
import RecordFilter.Proofs.Condition.Null
import RecordFilter.Proofs.Number.Filters
import RecordFilter.Proofs.Number.Order
import RecordFilter.Proofs.Condition.Rendered
import RecordFilter.Proofs.Query.Compiled
import RecordFilter.Proofs.Query.Where
import RecordFilter.Proofs.Query.Order
import RecordFilter.Proofs.Memory.Places
import RecordFilter.Proofs.Memory.Evaluate
import RecordFilter.Proofs.Schema.Cache
import RecordFilter.Proofs.Schema.Known
import RecordFilter.Proofs.Query.PrimaryKey
import RecordFilter.Proofs.Query.Preorder
import RecordFilter.Proofs.Engine.Backend
import RecordFilter.Sql.Lexeme
import RecordFilter.Proofs.Sql.Spelling
import RecordFilter.Proofs.Sql.Printed
import RecordFilter.Sql.Reading
import RecordFilter.Proofs.Sql.ReadBack
import RecordFilter.Proofs.Sql.Numbering
import RecordFilter.Proofs.Sql.Clauses
import RecordFilter.Proofs.Query.WhereText
import RecordFilter.Proofs.Query.OrderText
import RecordFilter.Proofs.Memory.Permuted
import RecordFilter.Proofs.Query.Joins
import RecordFilter.Proofs.Condition.Complement
import RecordFilter.Proofs.Query.Complement
import RecordFilter.Proofs.Calendar.Span
import RecordFilter.Proofs.Condition.Ordered
import RecordFilter.Proofs.Query.FromClause
import RecordFilter.Proofs.Query.Outputs
import RecordFilter.Proofs.Condition.Days
import RecordFilter.Proofs.Memory.Moving
import RecordFilter.Proofs.Page.Partition
import RecordFilter.Proofs.Query.Session
import RecordFilter.Proofs.Query.Lenient
import RecordFilter.Proofs.Query.Values
import RecordFilter.Proofs.Query.Placeholders
import RecordFilter.Proofs.Condition.Text
import RecordFilter.Proofs.Condition.Outcome
import RecordFilter.Proofs.Query.Resolution
import RecordFilter.Proofs.Filter.Document
import RecordFilter.Proofs.Condition.Instants
import RecordFilter.Proofs.Sql.StoredTime
import RecordFilter.Proofs.Number.Written
import RecordFilter.Proofs.Condition.Evaluation
