import Tabular.Statement.Execute
import Tabular.Statement.Parse
import Tabular.Statistics

/-!
# Sessions

A session keeps a database and takes statements as text.  It counts them and remembers the message
of the last one if that failed.
-/

namespace Tabular

structure Session where
  database : Database
  settings : Settings
  backend : Option Backend
  lastError : Option String
  statistics : Statistics

namespace Session

def new (settings : Settings) : Session :=
  ⟨.empty, settings, none, none, .zero⟩

def setBackend (s : Session) (b : Backend) : Session :=
  { s with backend := some b }

/-- Takes the backend out and gives it back, if there is one. -/
def clearBackend (s : Session) : Option Backend × Session :=
  (s.backend, { s with backend := none })

/-- How the lexer of the session treats what has no token. -/
def mode (s : Session) : Mode :=
  if s.settings.lexer.rejectInvalidTokens then .strict else .permissive

def run (s : Session) (source : String) : Database.Change QueryResult := do
  let tokens ← ofExcept (tokenize source s.mode)
  let statement ← ofExcept (Statement.ofTokens tokens)
  statement.execute s.settings.execution s.backend

def execute (s : Session) (source : String) : Except Error QueryResult × Session :=
  match (s.run source).run s.database with
  | .ok result database =>
      (.ok result,
        { s with
          database
          lastError := none
          statistics := s.statistics.recordSuccess (UInt64.ofNat result.rows.length)
            result.affected })
  | .error e database =>
      (.error e,
        { s with
          database
          lastError := some e.message
          statistics := s.statistics.recordFailure })

/-- Runs a statement for its rows; a failure gives no rows and a message. -/
def executeRows (s : Session) (source : String) : (List Row × Option String) × Session :=
  match s.execute source with
  | (.ok result, next) => ((result.rows, none), next)
  | (.error e, next) => (([], some e.message), next)

end Session

end Tabular
