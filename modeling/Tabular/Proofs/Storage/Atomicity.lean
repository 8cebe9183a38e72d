import Tabular.Proofs.Storage.Integrity

/-!
# Failures change nothing

A statement that fails leaves the database as it was, whichever of its steps failed: every step
either reads, or changes the database as its last act.  The session only records the failure.
-/

namespace Tabular

/-! ## Changes of the database -/

theorem Table.atomic_addRows (rows : List Row) : Atomic (Table.addRows rows) := by
  intro t e t' failed
  have state : stateAfter (addRows rows) t = t' := by rw [stateAfter, failed]
  rw [stateAfter_addRows] at state
  cases valid : t.validateAll rows with
  | ok _ => simp [addRows, valid, run_ofExcept] at failed
  | error e' =>
      rw [valid] at state
      exact state.symm

namespace Database

theorem atomic_createTable (name : String) (schema : Schema) :
    Atomic (createTable name schema) := by
  intro db e db' failed
  cases found : db.table? name with
  | some t =>
      rw [run_createTable_of_some found] at failed
      cases failed
      rfl
  | none =>
      rw [run_createTable_of_none found] at failed
      cases failed

/-- A failure inside a table puts the same table back. -/
theorem atomic_inTable {α : Type} {name : String} {change : Table.Change α}
    (atomic : Atomic change) : Atomic (inTable name change) := by
  intro db e db' failed
  cases found : db.table? name with
  | none =>
      rw [run_inTable_of_none found] at failed
      cases failed
      rfl
  | some t =>
      rw [run_inTable_of_some found] at failed
      cases inner : change.run t with
      | ok a changed =>
          rw [inner] at failed
          cases failed
      | error e' changed =>
          rw [inner] at failed
          cases failed
          rw [atomic t e changed inner]
          exact replace_self found

end Database

/-! ## Statements -/

theorem Insert.atomic_execute (insertion : Insert) : Atomic insertion.execute := by
  refine reads_get.bind fun db => (reads_ofExcept _).bind fun t => ?_
  refine (reads_ofExcept _).bind fun positions => (reads_ofExcept _).bind fun added => ?_
  exact (Database.atomic_inTable (Table.atomic_addRows added)).bind_pure _

/-- A drop fails only where there was nothing to drop. -/
theorem Statement.atomic_dropTable (settings : ExecutionSettings) (backend : Option Backend)
    (name : String) : Atomic ((Statement.dropTable name).execute settings backend) := by
  intro db e db' failed
  cases found : db.table? name with
  | some t => simp [execute, found] at failed
  | none =>
      rcases run_bind_eq_error_iff.mp failed with dropped | ⟨dropped, db'', ran, refused⟩
      · cases dropped
      · cases ran
        rw [found, Database.drop_missing found] at refused
        split at refused
        · cases refused
          rfl
        · cases refused

theorem Statement.atomic_execute (settings : ExecutionSettings) (backend : Option Backend)
    (statement : Statement) : Atomic (statement.execute settings backend) := by
  cases statement with
  | select query => exact reads_get.bind fun db => (reads_ofExcept _).atomic
  | insert insertion => exact insertion.atomic_execute
  | createTable name columns =>
      refine (reads_ofExcept _).bind fun schema => ?_
      exact (Database.atomic_createTable name schema).bind_pure fun _ => _
  | dropTable name => exact Statement.atomic_dropTable settings backend name

/-! ## Sessions -/

namespace Session

theorem atomic_run (s : Session) (source : String) : Atomic (s.run source) :=
  (reads_ofExcept _).bind fun _ => (reads_ofExcept _).bind fun statement =>
    statement.atomic_execute _ _

theorem execute_of_error {s : Session} {source : String} {e : Error}
    (failed : (s.execute source).1 = .error e) :
    (s.execute source).2 =
      { s with lastError := some e.message, statistics := s.statistics.recordFailure } := by
  unfold execute at *
  cases run : (s.run source).run s.database with
  | ok result database => simp [run] at failed
  | error e' database =>
      simp only [run] at failed ⊢
      cases failed
      rw [s.atomic_run source s.database e database run]

end Session

theorem toNat_add_one {n : UInt64} (h : n.toNat < 2 ^ 64 - 1) : (n + 1).toNat = n.toNat + 1 := by
  rw [UInt64.toNat_add]
  simp
  omega

/--
A failed statement leaves the tables, the settings and the backend, and it is counted and
reported, but it counts no rows.
-/
theorem failure_changes_nothing {s : Session} {source : String} {e : Error}
    (failed : (s.execute source).1 = .error e) :
    let after := (s.execute source).2
    after.database = s.database ∧
      after.statistics.rowsReturned = s.statistics.rowsReturned ∧
      after.statistics.rowsInserted = s.statistics.rowsInserted ∧
      (s.statistics.statements.toNat < 2 ^ 64 - 1 →
        after.statistics.statements.toNat = s.statistics.statements.toNat + 1) ∧
      (s.statistics.failed.toNat < 2 ^ 64 - 1 →
        after.statistics.failed.toNat = s.statistics.failed.toNat + 1) ∧
      after.lastError = some e.message ∧
      after.settings = s.settings ∧
      after.backend = s.backend := by
  intro after
  have state : after = _ := Session.execute_of_error failed
  rw [state]
  exact ⟨rfl, rfl, rfl, toNat_add_one, toNat_add_one, rfl, rfl, rfl⟩

/-- The second of two rows is refused, and the first one is not stored. -/
theorem failure_changes_nothing_insert :
    let s := (Session.new .strict).behind [.execute "CREATE TABLE t (a INTEGER NOT NULL)"]
    ∃ e, (s.execute "INSERT INTO t VALUES (1), (NULL)").1 = .error e ∧
      (s.execute "INSERT INTO t VALUES (1), (NULL)").2.database = s.database ∧
      (s.execute "INSERT INTO t VALUES (1), (NULL)").2.lastError = some e.message := by
  intro s
  have refused : (s.execute "INSERT INTO t VALUES (1), (NULL)").1.isOk = false := by decide +kernel
  obtain ⟨e, failed⟩ := exists_error refused
  obtain ⟨database, -, -, -, -, lastError, -, -⟩ := failure_changes_nothing failed
  exact ⟨e, failed, database, lastError⟩

end Tabular
