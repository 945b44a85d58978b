import RecordFilter.Database.Run

/-!
# Row count estimates

An estimator guesses how many rows a table has. Estimates only choose a backend, so a failed one is
never the failure of a request.
-/

namespace RecordFilter

structure Estimator where
  name : String
  estimate : String → Except FilterError Nat

namespace Estimator

def fixed (rows : Nat) : Estimator := ⟨"fixed", fun _ => .ok rows⟩

def recorded (db : Database) : Estimator where
  name := "sqlite_stat1"
  estimate table := match db.statistics with
    | none => .error (.estimate table .database)
    | some counts => match counts.lookup table with
      | some rows => .ok rows
      | none => .error (.estimate table .noStatistics)

def exact (db : Database) : Estimator where
  name := "exact_count"
  estimate table := match db.table? table with
    | some t => .ok t.rows.length
    | none => .error (.estimate table .database)

def firstEstimate (table : String) (last : FilterError) : List Estimator → Except FilterError Nat
  | [] => .error last
  | e :: es => match e.estimate table with
    | .ok rows => .ok rows
    | .error error => firstEstimate table error es

def fallback (chain : List Estimator) : Estimator where
  name := "fallback"
  estimate table := firstEstimate table (.estimate table .noEstimators) chain

/-- Recorded counts, and the present count where there is none. -/
def ofDatabase (db : Database) : Estimator := fallback [recorded db, exact db]

end Estimator

inductive Backend where
  /-- Fetch every row, then filter, sort and page in memory. -/
  | memory
  /-- Count and page in the database. -/
  | relational
deriving DecidableEq

instance : Named Backend where
  all := [.memory, .relational]
  name
    | .memory => "memory"
    | .relational => "relational"

/-- Tables at or below the threshold go to memory; without an estimate the database does the
work. -/
def Backend.select (threshold : Nat) : Except FilterError Nat → Backend
  | .ok rows => if rows ≤ threshold then memory else relational
  | .error _ => relational

end RecordFilter
