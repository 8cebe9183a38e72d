import Tabular.Proofs.Storage.Integrity

/-!
# Effects of statements

What each kind of statement answers, and which database it leaves, where it succeeds.  Whatever is
proved of all successful statements is proved from these.
-/

namespace Tabular

variable {db after : Database} {result : QueryResult}

/-! ## Changes of the database -/

theorem Table.run_addRows_eq_ok_iff {t behind : Table} {rows : List Row} {count : Nat} :
    (Table.addRows rows).run t = .ok count behind ↔
      t.validateAll rows = .ok () ∧ count = rows.length ∧
        behind = { t with rows := t.rows ++ rows } := by
  simp only [addRows, EStateM.run_bind, EStateM.run_get, run_ofExcept]
  cases t.validateAll rows with
  | error e => simp
  | ok _ =>
      simp only [EStateM.run_modify, EStateM.run_pure, EStateM.Result.ok.injEq, true_and,
        eq_comm]

theorem Database.table_eq_ok_iff {name : String} {t : Table} :
    db.table name = .ok t ↔ db.table? name = some t := by
  unfold table
  cases db.table? name <;> simp

theorem Database.run_inTable_eq_ok_iff {α : Type} {name : String} {t : Table}
    {change : Table.Change α} {a : α} (found : db.table? name = some t) :
    (inTable name change).run db = .ok a after ↔
      ∃ behind, change.run t = .ok a behind ∧ after = db.replace name behind := by
  rw [run_inTable_of_some found]
  cases change.run t <;> simp [and_assoc, eq_comm]

theorem Database.run_createTable_eq_ok_iff {name : String} {schema : Schema} :
    (createTable name schema).run db = .ok () after ↔
      ∃ new : db.table? name = none, after = db.add name (.empty name schema) new := by
  by_cases new : db.table? name = none
  · simp [run_createTable_of_none new, new, eq_comm]
  · obtain ⟨t, found⟩ := Option.ne_none_iff_exists'.mp new
    simp [run_createTable_of_some found, found]

/-! ## Insertions, creations and drops -/

/-- A successful insertion adds valid rows to its table, and counts them. -/
theorem Insert.run_execute_eq_ok_iff {insertion : Insert} :
    insertion.execute.run db = .ok result after ↔
      ∃ t positions added, db.table? insertion.table = some t ∧
        insertion.columns.mapM (t.schema.positionsOf []) = .ok positions ∧
        insertion.rows t.schema.width positions insertion.tuples = .ok added ∧
        t.validateAll added = .ok () ∧ result = .stored added.length ∧
        after = db.replace insertion.table { t with rows := t.rows ++ added } := by
  constructor
  · intro run
    obtain ⟨_, _, ⟨⟩, looking⟩ := run_bind_eq_ok_iff.mp run
    obtain ⟨t, _, look, resolving⟩ := run_bind_eq_ok_iff.mp looking
    obtain ⟨looked, rfl⟩ := run_ofExcept_eq_ok_iff.mp look
    obtain ⟨positions, _, resolve, building⟩ := run_bind_eq_ok_iff.mp resolving
    obtain ⟨resolved, rfl⟩ := run_ofExcept_eq_ok_iff.mp resolve
    obtain ⟨added, _, build, storing⟩ := run_bind_eq_ok_iff.mp building
    obtain ⟨built, rfl⟩ := run_ofExcept_eq_ok_iff.mp build
    obtain ⟨count, _, store, ⟨⟩⟩ := run_bind_eq_ok_iff.mp storing
    have found := Database.table_eq_ok_iff.mp looked
    obtain ⟨behind, change, rfl⟩ := (Database.run_inTable_eq_ok_iff found).mp store
    obtain ⟨valid, rfl, rfl⟩ := Table.run_addRows_eq_ok_iff.mp change
    exact ⟨t, positions, added, found, resolved, built, valid, rfl, rfl⟩
  · rintro ⟨t, positions, added, found, resolved, built, valid, rfl, rfl⟩
    have looked := Database.table_eq_ok_iff.mpr found
    have inner := Table.run_addRows_eq_ok_iff.mpr ⟨valid, rfl, rfl⟩
    have stored := (Database.run_inTable_eq_ok_iff found).mpr ⟨_, inner, rfl⟩
    simp only [execute, EStateM.run_bind, EStateM.run_get, run_ofExcept, looked, resolved, built,
      stored, EStateM.run_pure]

/-- A successful creation puts an empty table under a name that had none. -/
theorem Statement.run_createTable_eq_ok_iff {settings : ExecutionSettings}
    {backend : Option Backend} {name : String} {columns : List Column} :
    ((createTable name columns).execute settings backend).run db = .ok result after ↔
      ∃ schema, ∃ new : db.table? name = none, Schema.ofColumns columns = .ok schema ∧
        result = .empty ∧ after = db.add name (.empty name schema) new := by
  constructor
  · intro run
    obtain ⟨schema, _, build, creating⟩ := run_bind_eq_ok_iff.mp run
    obtain ⟨built, rfl⟩ := run_ofExcept_eq_ok_iff.mp build
    obtain ⟨_, _, create, ⟨⟩⟩ := run_bind_eq_ok_iff.mp creating
    obtain ⟨new, rfl⟩ := Database.run_createTable_eq_ok_iff.mp create
    exact ⟨schema, new, built, rfl, rfl⟩
  · rintro ⟨schema, new, built, rfl, rfl⟩
    simp only [execute, EStateM.run_bind, run_ofExcept, built,
      Database.run_createTable_of_none new, EStateM.run_pure]

/-- A drop succeeds unless there is nothing to drop and the settings forbid that. -/
theorem Statement.run_dropTable_eq_ok_iff {settings : ExecutionSettings}
    {backend : Option Backend} {name : String} :
    ((dropTable name).execute settings backend).run db = .ok result after ↔
      (db.table? name = none → settings.errorOnMissingDrop = false) ∧
        .empty = result ∧ db.drop name = after := by
  simp only [execute, EStateM.run_bind, Database.run_dropTable]
  cases db.table? name with
  | some t => simp
  | none => cases settings.errorOnMissingDrop <;> simp

/-! ## Queries -/

theorem Statement.answerOf_select (settings : ExecutionSettings) (backend : Option Backend)
    (query : Select) (db : Database) :
    answerOf ((select query).execute settings backend) db =
      query.execute (if settings.useBackend then backend else none) db := by
  rw [execute, answerOf_bind]
  exact answerOf_ofExcept _ db

theorem Statement.stateAfter_select (settings : ExecutionSettings) (backend : Option Backend)
    (query : Select) (db : Database) :
    stateAfter ((select query).execute settings backend) db = db := by
  rw [execute, stateAfter_bind_of_ok (rfl : answerOf get db = .ok db)]
  exact reads_ofExcept _ db

end Tabular
