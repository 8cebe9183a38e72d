import Tabular.Binary64.Decimal
import Tabular.Json

/-!
# Statistics

Counters of the statements of a session.  They are 64 bits wide and start again at zero behind the
last number.
-/

namespace Tabular

structure Statistics where
  statements : UInt64
  failed : UInt64
  rowsReturned : UInt64
  rowsInserted : UInt64
  deriving DecidableEq

namespace Statistics

def zero : Statistics :=
  ⟨0, 0, 0, 0⟩

/-- Counts a statement that gave back and stored rows. -/
def recordSuccess (s : Statistics) (returned stored : UInt64) : Statistics :=
  { s with
    statements := s.statements + 1
    rowsReturned := s.rowsReturned + returned
    rowsInserted := s.rowsInserted + stored }

def recordFailure (s : Statistics) : Statistics :=
  { s with statements := s.statements + 1, failed := s.failed + 1 }

/-- The share of the statements that failed; zero before the first statement. -/
def failureRate (s : Statistics) : Binary64 :=
  if s.statements = 0 then .ofInt 0
  else .onMachine (· / ·) (.ofInt s.failed.toNat) (.ofInt s.statements.toNat)

def toJson (s : Statistics) : Json :=
  .ofFields [
    ("statements", .integer s.statements.toNat),
    ("failed", .integer s.failed.toNat),
    ("rows_returned", .integer s.rowsReturned.toNat),
    ("rows_inserted", .integer s.rowsInserted.toNat),
    ("failure_rate", .ofReal s.failureRate)]

/-- The counters of a document; every counter is required. -/
def ofJson? (j : Json) : Option Statistics := do
  match ← j.record? ["statements", "failed", "rows_returned", "rows_inserted"] with
  | [statements, failed, returned, inserted] =>
      return ⟨← statements.uint64?, ← failed.uint64?, ← returned.uint64?, ← inserted.uint64?⟩
  | _ => none

end Statistics

end Tabular
