import Tabular.Proofs.Session.Steps
import Tabular.Proofs.Storage.Locality

/-!
# Statements on different tables

A statement names one table.  Without a backend it leaves all others, and its answer depends on no
other, so two statements on different tables can be exchanged, whether they succeed or fail.
-/

namespace Tabular

/-! ## The table of a statement -/

def Statement.tableName : Statement → String
  | .select query => query.source
  | .insert insertion => insertion.table
  | .createTable name _ => name
  | .dropTable name => name

theorem Database.table_congr {db db' : Database} {name : String}
    (same : db.table? name = db'.table? name) : db.table name = db'.table name := by
  rw [table, table, same]

theorem Select.actsOn_execute (query : Select) :
    Database.ActsOn query.source (do ofExcept (query.execute none (← get))) :=
  Database.actsOn_look fun same => by rw [execute, execute, Database.table_congr same]

theorem Insert.actsOn_execute (insertion : Insert) :
    Database.ActsOn insertion.table insertion.execute := by
  have look : Database.ActsOn insertion.table (do ofExcept ((← get).table insertion.table)) :=
    Database.actsOn_look Database.table_congr
  unfold execute
  rw [← bind_assoc]
  refine look.bind fun t => (Database.actsOn_ofExcept _ _).bind fun positions => ?_
  refine (Database.actsOn_ofExcept _ _).bind fun added => ?_
  refine (Database.actsOn_inTable _ _).bind fun count => ?_
  exact Database.actsOn_ofExcept _ (.ok _)

theorem Statement.actsOn_execute (settings : ExecutionSettings) (statement : Statement) :
    Database.ActsOn statement.tableName (statement.execute settings none) := by
  cases statement with
  | select query =>
      rw [execute, ite_self]
      exact query.actsOn_execute
  | insert insertion => exact insertion.actsOn_execute
  | createTable name columns =>
      refine (Database.actsOn_ofExcept _ _).bind fun schema => ?_
      exact (Database.actsOn_createTable name schema).bind fun _ =>
        Database.actsOn_ofExcept _ (.ok _)
  | dropTable name =>
      refine (Database.actsOn_dropTable name).bind fun dropped => ?_
      split
      · exact (Database.actsOn_ofExcept _ (.error _)).bind fun _ =>
          Database.actsOn_ofExcept _ (.ok _)
      · exact Database.actsOn_ofExcept _ (.ok _)

/-! ## Counters -/

theorem Statistics.record_comm (s : Statistics) (first second : Except Error QueryResult) :
    (s.record first).record second = (s.record second).record first := by
  have swap (a b c : UInt64) : a + b + c = a + c + b := by
    rw [UInt64.add_assoc, UInt64.add_comm b, ← UInt64.add_assoc]
  cases first with
  | error e => cases second <;> rfl
  | ok result =>
      cases second with
      | error e => rfl
      | ok result' =>
          simp only [record, recordSuccess, swap s.rowsReturned (UInt64.ofNat result.rows.length),
            swap s.rowsInserted result.affected]

/-! ## Sessions -/

namespace Session

variable {s p : Session} {source other : String} {statement statement' : Statement}

theorem run_congr (settings : s.settings = p.settings) (backend : s.backend = p.backend)
    (source : String) : s.run source = p.run source := by
  rw [run, run, mode, mode, settings, backend]

theorem actsOn_run (alone : s.backend = none) (read : s.read source = .ok statement) :
    Database.ActsOn statement.tableName (s.run source) := by
  rw [run_of_read read, alone]
  exact statement.actsOn_execute s.settings.execution

theorem frame_execute (alone : s.backend = none) (read : s.read source = .ok statement)
    {name : String} (apart : name ≠ statement.tableName) :
    (s.execute source).2.database.table? name = s.database.table? name := by
  rw [database_execute]
  exact (actsOn_run alone read).frame _ _ apart

theorem database_execute_select {query : Select} (read : s.read source = .ok (.select query)) :
    (s.execute source).2.database = s.database := by
  rw [database_execute, run_of_read read, Statement.stateAfter_select]

theorem table?_execute_insert {insertion : Insert} {result : QueryResult}
    (read : s.read source = .ok (.insert insertion))
    (success : (s.execute source).1 = .ok result) :
    ∃ t added, s.database.table? insertion.table = some t ∧
      (s.execute source).2.database.table? insertion.table =
        some { t with rows := t.rows ++ added } := by
  rw [answer_execute, run_of_read read] at success
  have run := run_eq_ok_iff.mpr ⟨success, rfl⟩
  obtain ⟨t, _, added, found, -, -, -, -, behind⟩ := Insert.run_execute_eq_ok_iff.mp run
  refine ⟨t, added, found, ?_⟩
  rw [database_execute, run_of_read read, behind, Database.table?_replace, if_pos rfl, found]
  rfl

/-! ### Two statements -/

theorem answer_behind (alone : s.backend = none) (read : s.read source = .ok statement)
    (read' : s.read other = .ok statement') (apart : statement.tableName ≠ statement'.tableName) :
    ((s.execute other).2.execute source).1 = (s.execute source).1 := by
  obtain ⟨settings, backend⟩ := settings_execute s other
  rw [answer_execute, answer_execute, run_congr settings backend, database_execute]
  exact (actsOn_run alone read).answerOf_behind (actsOn_run alone read') apart _

theorem database_behind (alone : s.backend = none) (read : s.read source = .ok statement)
    (read' : s.read other = .ok statement') (apart : statement.tableName ≠ statement'.tableName) :
    ((s.execute source).2.execute other).2.database =
      ((s.execute other).2.execute source).2.database := by
  obtain ⟨settings, backend⟩ := settings_execute s source
  obtain ⟨settings', backend'⟩ := settings_execute s other
  rw [database_execute (s.execute source).2, database_execute (s.execute other).2,
    run_congr settings backend, run_congr settings' backend', database_execute, database_execute]
  exact (actsOn_run alone read).comm (actsOn_run alone read') apart _

theorem statistics_behind (alone : s.backend = none) (read : s.read source = .ok statement)
    (read' : s.read other = .ok statement') (apart : statement.tableName ≠ statement'.tableName) :
    ((s.execute source).2.execute other).2.statistics =
      ((s.execute other).2.execute source).2.statistics := by
  rw [statistics_execute (s.execute source).2, statistics_execute (s.execute other).2,
    answer_behind alone read read' apart, answer_behind alone read' read apart.symm,
    statistics_execute, statistics_execute, Statistics.record_comm]

end Session

/--
A statement leaves all tables but its own, and its answer depends on no other: so two statements on
different tables have the same answers, and leave the same tables and counters, in either order.
-/
theorem statements_are_independent {s : Session} (alone : s.backend = none) {source : String}
    {statement : Statement} (read : s.read source = .ok statement) :
    let after := (s.execute source).2
    (∀ name, name ≠ statement.tableName →
      after.database.table? name = s.database.table? name) ∧
    (∀ query, statement = .select query → after.database = s.database) ∧
    (∀ insertion result, statement = .insert insertion → (s.execute source).1 = .ok result →
      ∃ t added, s.database.table? insertion.table = some t ∧
        after.database.table? insertion.table = some { t with rows := t.rows ++ added }) ∧
    (∀ p : Session, p.settings = s.settings → p.backend = none →
      p.database.table? statement.tableName = s.database.table? statement.tableName →
      (p.execute source).1 = (s.execute source).1) ∧
    ∀ (other : String) (statement' : Statement), s.read other = .ok statement' →
      statement.tableName ≠ statement'.tableName →
      let before := (s.execute other).2
      (before.execute source).1 = (s.execute source).1 ∧
        (after.execute other).1 = (s.execute other).1 ∧
        (after.execute other).2.database = (before.execute source).2.database ∧
        (after.execute other).2.statistics = (before.execute source).2.statistics := by
  intro after
  refine ⟨fun name => Session.frame_execute alone read, ?_, ?_, ?_, ?_⟩
  · rintro query rfl
    exact Session.database_execute_select read
  · rintro insertion result rfl success
    exact Session.table?_execute_insert read success
  · intro p settings nothing same
    rw [Session.answer_execute, Session.answer_execute,
      Session.run_congr settings (nothing.trans alone.symm)]
    exact (Session.actsOn_run alone read).answer same
  · intro other statement' read' apart before
    exact ⟨Session.answer_behind alone read read' apart,
      Session.answer_behind alone read' read apart.symm,
      Session.database_behind alone read read' apart,
      Session.statistics_behind alone read read' apart⟩

/-- An insertion that succeeds beside one that fails. -/
theorem statements_are_independent_insert :
    let s := (Session.new .strict).behind
      [.execute "CREATE TABLE t (a INTEGER)", .execute "CREATE TABLE u (a INTEGER NOT NULL)"]
    let source := "INSERT INTO t VALUES (1)"
    let other := "INSERT INTO u VALUES (NULL)"
    ((s.execute source).2.execute other).1 = (s.execute other).1 ∧
      ((s.execute source).2.execute other).2.database =
        ((s.execute other).2.execute source).2.database := by
  intro s source other
  have read : (s.read source).toOption =
      some (.insert ⟨"t", none, [[.literal (.integer 1)]]⟩) := by decide +kernel
  have read' : (s.read other).toOption =
      some (.insert ⟨"u", none, [[.literal .null]]⟩) := by decide +kernel
  have alone : s.backend = none :=
    (Session.settings_execute _ _).2.trans (Session.settings_execute _ _).2
  obtain ⟨-, -, -, -, exchange⟩ := statements_are_independent alone (eq_ok_of_toOption read)
  obtain ⟨-, answer, database, -⟩ := exchange other _ (eq_ok_of_toOption read') (by decide)
  exact ⟨answer, database⟩

end Tabular
