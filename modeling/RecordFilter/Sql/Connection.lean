import RecordFilter.Error
import RecordFilter.Sql.Query

/-!
# Connections

A connection is sent texts with parameters and answers with a count or with rows of some type. A
page takes at most two texts: the rows are counted first, and the page is asked for only if it lies
before the end.
-/

namespace RecordFilter.Sql

structure Connection (ρ : Type) where
  count : String → Parameters → Except FilterError Int64
  rows : String → Parameters → Except FilterError (List ρ)

def Connection.fetchPage {ρ : Type} (c : Connection ρ) (q : Query) (p : Page) :
    Except FilterError (PageResult ρ) := do
  let total := (← c.count q.countText q.parameters).toInt.toNat
  if total ≤ p.offset then return .ofPage [] total p
  else return .ofPage (← c.rows (q.pageText p) q.parameters) total p

def Connection.fetchAll {ρ : Type} (c : Connection ρ) (text : String) :
    Except FilterError (List ρ) :=
  c.rows text {}

end RecordFilter.Sql
