import Tabular.Proofs.Storage.Integrity

/-!
# One text

What a session does with one text, in parts: the statement that it reads, the answer to it, and what
every field of the session is behind it.
-/

namespace Tabular

def messageOf {α : Type} : Except Error α → Option String
  | .ok _ => none
  | .error e => some e.message

/-- The counters behind one more answer. -/
def Statistics.record (s : Statistics) : Except Error QueryResult → Statistics
  | .ok result => s.recordSuccess (UInt64.ofNat result.rows.length) result.affected
  | .error _ => s.recordFailure

namespace Session

variable {s : Session} {source : String} {tokens : List Token} {statement : Statement} {e : Error}

/-! ## The statement of a text -/

/-- What the session reads from a text. -/
def read (s : Session) (source : String) : Except Error Statement :=
  tokenize source s.mode >>= Statement.ofTokens

theorem read_of_tokens (lexed : tokenize source s.mode = .ok tokens) :
    s.read source = Statement.ofTokens tokens := by
  rw [read, lexed]
  rfl

theorem read_congr {p : Session} (same : s.settings = p.settings) (source : String) :
    s.read source = p.read source := by
  rw [read, read, mode, mode, same]

theorem run_eq (s : Session) (source : String) :
    s.run source = ofExcept (s.read source) >>= fun statement =>
      statement.execute s.settings.execution s.backend := by
  unfold run read
  cases tokenize source s.mode <;> rfl

theorem run_of_read (read : s.read source = .ok statement) :
    s.run source = statement.execute s.settings.execution s.backend := by
  rw [run_eq, read]
  rfl

theorem run_of_unread (unread : s.read source = .error e) : s.run source = throw e := by
  rw [run_eq, unread]
  rfl

/-! ## The session behind a text -/

theorem execute_eq (s : Session) (source : String) :
    s.execute source =
      (answerOf (s.run source) s.database,
        { s with
          database := stateAfter (s.run source) s.database
          lastError := messageOf (answerOf (s.run source) s.database)
          statistics := s.statistics.record (answerOf (s.run source) s.database) }) := by
  unfold execute answerOf stateAfter
  cases (s.run source).run s.database <;> rfl

theorem answer_execute (s : Session) (source : String) :
    (s.execute source).1 = answerOf (s.run source) s.database := by
  rw [execute_eq]

theorem statistics_execute (s : Session) (source : String) :
    (s.execute source).2.statistics = s.statistics.record (s.execute source).1 := by
  rw [execute_eq]

theorem lastError_execute (s : Session) (source : String) :
    (s.execute source).2.lastError = messageOf (s.execute source).1 := by
  rw [execute_eq]

theorem settings_execute (s : Session) (source : String) :
    (s.execute source).2.settings = s.settings ∧ (s.execute source).2.backend = s.backend := by
  rw [execute_eq]
  exact ⟨rfl, rfl⟩

end Session

end Tabular
