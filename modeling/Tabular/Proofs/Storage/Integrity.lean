import Tabular.Proofs.Storage.Lookup
import Tabular.Session

/-!
# Integrity of stored data

Whatever is done to a database, every table stands under its own name, its schema finds each column
at its position, and its rows fit the schema.  Each change of the database keeps this, also where it
fails, so it holds behind every run of changes.
-/

namespace Tabular

/-! ## Rows that fit a schema -/

/-- One value for each column, and none that its column does not admit. -/
def Schema.Admits (s : Schema) (row : Row) : Prop :=
  row.length = s.width ∧
    ∀ (i : Nat) (c : Column) (v : Value), s.columns[i]? = some c → row[i]? = some v → c.Admits v

theorem checkValues_eq_ok_iff {columns : List Column} {row : Row} :
    checkValues columns row = .ok () ↔
      ∀ (i : Nat) (c : Column) (v : Value), columns[i]? = some c → row[i]? = some v →
        c.Admits v := by
  induction columns generalizing row with
  | nil => simp [checkValues]
  | cons c columns ih =>
      cases row with
      | nil => simp [checkValues]
      | cons v row =>
          rw [checkValues, bind_eq_ok_iff]
          constructor
          · rintro ⟨_, first, others⟩ i c' v' hc hv
            cases i with
            | zero =>
                cases hc
                cases hv
                exact Column.check_eq_ok_iff.mp first
            | succ i => exact ih.mp others i c' v' hc hv
          · intro all
            have first := Column.check_eq_ok_iff.mpr (all 0 c v rfl rfl)
            exact ⟨(), first, ih.mpr fun i => all (i + 1)⟩

namespace Table

variable {t : Table}

theorem validate_eq_ok_iff {row : Row} : t.validate row = .ok () ↔ t.schema.Admits row := by
  unfold validate Schema.Admits
  by_cases width : row.length = t.schema.width
  · rw [if_pos width, checkValues_eq_ok_iff]
    simp only [width, true_and]
  · rw [if_neg width]
    simp [width]

theorem validateAll_eq_ok_iff {rows : List Row} :
    t.validateAll rows = .ok () ↔ ∀ row ∈ rows, t.schema.Admits row := by
  induction rows with
  | nil => simp [validateAll]
  | cons row rows ih =>
      rw [validateAll, bind_eq_ok_iff, List.forall_mem_cons, ← validate_eq_ok_iff, ← ih]
      constructor
      · intro holds
        rcases holds with ⟨_, first, others⟩
        exact ⟨first, others⟩
      · intro holds
        rcases holds with ⟨first, others⟩
        exact ⟨(), first, others⟩

theorem stateAfter_addRow (row : Row) :
    stateAfter (addRow row) t =
      match t.validate row with
      | .ok () => { t with rows := t.rows ++ [row] }
      | .error _ => t := by
  simp only [stateAfter, addRow, EStateM.run_bind, EStateM.run_get, run_ofExcept]
  cases t.validate row <;> rfl

theorem stateAfter_addRows (rows : List Row) :
    stateAfter (addRows rows) t =
      match t.validateAll rows with
      | .ok () => { t with rows := t.rows ++ rows }
      | .error _ => t := by
  simp only [stateAfter, addRows, EStateM.run_bind, EStateM.run_get, run_ofExcept]
  cases t.validateAll rows <;> rfl

/-! ## Tables -/

/-- The names of the columns are distinct, the index gives each its position, and the rows fit. -/
structure WellFormed (t : Table) : Prop where
  distinct : t.schema.columnNames.Nodup
  indexed (name : String) (i : Nat) :
    t.schema.index name = .ok i ↔ t.schema.columnNames[i]? = some name
  fitting : ∀ row ∈ t.rows, t.schema.Admits row

def StoredAs (name : String) (t : Table) : Prop :=
  t.name = name ∧ t.WellFormed

theorem wellFormed_of_fitting (h : ∀ row ∈ t.rows, t.schema.Admits row) : t.WellFormed :=
  ⟨t.schema.nodup_columnNames, fun _ _ => Schema.index_eq_ok_iff, h⟩

theorem storedAs_empty (name : String) (schema : Schema) : StoredAs name (empty name schema) :=
  ⟨rfl, wellFormed_of_fitting (by simp [empty])⟩

theorem StoredAs.append {name : String} {rows : List Row} (h : t.StoredAs name)
    (fitting : ∀ row ∈ rows, t.schema.Admits row) :
    StoredAs name { t with rows := t.rows ++ rows } := by
  refine ⟨h.1, wellFormed_of_fitting fun row member => ?_⟩
  rcases List.mem_append.mp member with stored | new
  · exact h.2.fitting row stored
  · exact fitting row new

theorem keeps_addRow (name : String) (row : Row) : Keeps (StoredAs name) (addRow row) := by
  intro t h
  rw [stateAfter_addRow]
  cases valid : t.validate row with
  | ok _ => exact h.append (by simpa using validate_eq_ok_iff.mp valid)
  | error e => exact h

theorem keeps_addRows (name : String) (rows : List Row) : Keeps (StoredAs name) (addRows rows) := by
  intro t h
  rw [stateAfter_addRows]
  cases valid : t.validateAll rows with
  | ok _ => exact h.append (validateAll_eq_ok_iff.mp valid)
  | error e => exact h

end Table

/-! ## Databases -/

namespace Database

/-! ### What holds of every table -/

/-- Every table has the property that goes with its name. -/
def All (P : String → Table → Prop) (db : Database) : Prop :=
  ∀ name t, db.table? name = some t → P name t

variable {P : String → Table → Prop} {name : String}

theorem all_empty : empty.All P := by
  intro name t found
  rw [table?_empty] at found
  cases found

theorem keeps_createTable {schema : Schema} (new : P name (.empty name schema)) :
    Keeps (All P) (createTable name schema) := by
  intro db h
  cases found : db.table? name with
  | some t =>
      rw [stateAfter, run_createTable_of_some found]
      exact h
  | none =>
      rw [stateAfter, run_createTable_of_none found]
      intro other t stored
      rw [table?_add] at stored
      split at stored
      · rename_i same
        cases stored
        rw [same]
        exact new
      · exact h other t stored

theorem keeps_dropTable (name : String) : Keeps (All P) (dropTable name) := by
  intro db h other t stored
  rw [stateAfter, run_dropTable] at stored
  rw [table?_drop] at stored
  split at stored
  · cases stored
  · exact h other t stored

theorem keeps_inTable {α : Type} {change : Table.Change α} (keeps : Keeps (P name) change) :
    Keeps (All P) (inTable name change) := by
  intro db h
  cases found : db.table? name with
  | none =>
      rw [stateAfter, run_inTable_of_none found]
      exact h
  | some t =>
      rw [stateAfter_inTable found]
      intro other t' stored
      rw [table?_replace, found] at stored
      split at stored
      · rename_i same
        cases stored
        rw [same]
        exact keeps t (h name t found)
      · exact h other t' stored

/-! ### Integrity -/

def WellFormed (db : Database) : Prop :=
  ∀ name t, db.table? name = some t → t.StoredAs name

theorem wellFormed_empty : empty.WellFormed :=
  all_empty

/-! ### Calls -/

inductive Call where
  | createTable (name : String) (columns : List Column)
  | dropTable (name : String)
  | insertRow (table : String) (row : Row)
  | insertRows (table : String) (rows : List Row)

namespace Call

def run : Call → Change Unit
  | createTable name columns => do
      Database.createTable name (← ofExcept (Schema.ofColumns columns))
  | dropTable name => do
      let _ ← Database.dropTable name
  | insertRow table row => inTable table (Table.addRow row)
  | insertRows table rows => do
      let _ ← inTable table (Table.addRows rows)

theorem keeps_run (call : Call) : Keeps WellFormed call.run := by
  cases call with
  | createTable name columns =>
      exact (keeps_ofExcept _).bind fun schema =>
        keeps_createTable (Table.storedAs_empty name schema)
  | dropTable name => exact (keeps_dropTable name).bind fun _ => keeps_pure ()
  | insertRow table row => exact keeps_inTable (Table.keeps_addRow table row)
  | insertRows table rows =>
      exact (keeps_inTable (Table.keeps_addRows table rows)).bind fun _ => keeps_pure ()

end Call

/-- The database behind calls, the failed ones included. -/
def behind (db : Database) (calls : List Call) : Database :=
  calls.foldl (fun db call => stateAfter call.run db) db

theorem WellFormed.behind {db : Database} (h : db.WellFormed) (calls : List Call) :
    (db.behind calls).WellFormed := by
  induction calls generalizing db with
  | nil => exact h
  | cons call calls ih => exact ih (call.keeps_run db h)

end Database

/-! ## Statements -/

section Statements

variable {P : String → Table → Prop}

theorem Insert.keeps_execute (added : ∀ name rows, Keeps (P name) (Table.addRows rows))
    (insertion : Insert) : Keeps (Database.All P) insertion.execute := by
  refine keeps_get.bind fun db => (keeps_ofExcept _).bind fun t => ?_
  refine (keeps_ofExcept _).bind fun positions => (keeps_ofExcept _).bind fun rows => ?_
  exact (Database.keeps_inTable (added _ rows)).bind fun count => keeps_pure _

theorem Statement.keeps_execute (settings : ExecutionSettings) (backend : Option Backend)
    {statement : Statement}
    (created : ∀ name columns schema, statement = .createTable name columns →
      Schema.ofColumns columns = .ok schema → P name (.empty name schema))
    (added : ∀ name rows, Keeps (P name) (Table.addRows rows)) :
    Keeps (Database.All P) (statement.execute settings backend) := by
  cases statement with
  | select query => exact keeps_get.bind fun db => keeps_ofExcept _
  | insert insertion => exact insertion.keeps_execute added
  | createTable name columns =>
      refine Keeps.ofExcept_bind fun schema built => ?_
      have new := created name columns schema rfl built
      exact (Database.keeps_createTable new).bind fun _ => keeps_pure _
  | dropTable name =>
      refine (Database.keeps_dropTable name).bind fun dropped => ?_
      split
      · exact (keeps_throw _).bind fun _ => keeps_pure _
      · exact keeps_pure _

end Statements

/-! ## Sessions -/

namespace Session

theorem keeps_run (s : Session) (source : String) :
    Keeps Database.WellFormed (s.run source) := by
  refine (keeps_ofExcept _).bind fun tokens => (keeps_ofExcept _).bind fun statement => ?_
  refine Statement.keeps_execute _ _ (fun name _ schema _ _ => ?_) Table.keeps_addRows
  exact Table.storedAs_empty name schema

theorem database_execute (s : Session) (source : String) :
    (s.execute source).2.database = stateAfter (s.run source) s.database := by
  unfold execute stateAfter
  cases (s.run source).run s.database <;> rfl

inductive Request where
  | execute (source : String)
  | setBackend (backend : Backend)
  | clearBackend

def perform (s : Session) : Request → Session
  | .execute source => (s.execute source).2
  | .setBackend backend => s.setBackend backend
  | .clearBackend => s.clearBackend.2

/-- The session behind requests, the failed ones included. -/
def behind (s : Session) (requests : List Request) : Session :=
  requests.foldl perform s

theorem keeps_behind {P : Database → Prop}
    (keeps : ∀ (s : Session) (source : String), Keeps P (s.run source)) {s : Session}
    (h : P s.database) (requests : List Request) : P (s.behind requests).database := by
  induction requests generalizing s with
  | nil => exact h
  | cons request requests ih =>
      refine ih (s := s.perform request) ?_
      cases request with
      | execute source =>
          rw [perform, database_execute]
          exact keeps s source s.database h
      | setBackend backend => exact h
      | clearBackend => exact h

theorem wellFormed_behind {s : Session} (h : s.database.WellFormed) (requests : List Request) :
    (s.behind requests).database.WellFormed :=
  keeps_behind keeps_run h requests

end Session

/-! ## Reachable databases -/

/-- The database behind requests to a new session, or behind calls to an empty database. -/
inductive Database.Reachable : Database → Prop where
  | requests (settings : Settings) (requests : List Session.Request) :
      Reachable ((Session.new settings).behind requests).database
  | calls (calls : List Call) : Reachable (empty.behind calls)

theorem Database.Reachable.wellFormed {db : Database} (h : db.Reachable) : db.WellFormed := by
  cases h with
  | requests settings requests => exact Session.wellFormed_behind wellFormed_empty requests
  | calls calls => exact wellFormed_empty.behind calls

/-- Every database that a session or calls can reach from an empty one is well-formed. -/
theorem reachable_wellFormed :
    (∀ (settings : Settings) (requests : List Session.Request),
      ((Session.new settings).behind requests).database.WellFormed) ∧
    ∀ calls : List Database.Call, (Database.empty.behind calls).WellFormed :=
  ⟨fun _ requests => Session.wellFormed_behind Database.wellFormed_empty requests,
    fun calls => Database.wellFormed_empty.behind calls⟩

end Tabular
