import Mathlib.Algebra.GroupWithZero.Nat
import Tabular.Proofs.Session.Steps
import Tabular.Proofs.Storage.Atomicity
import Tabular.Proofs.Storage.Locality

/-!
# The counters account for every row

Behind any calls the counters of a session say what a log of its answers says: how many there were,
how many of them failed, and how many rows they gave back.  The rows that were stored are those in
the tables and those that were dropped with their tables.  Counters are 64 bits wide, so all of this
holds up to that width.
-/

namespace Tabular

/-! ## Rows of a database -/

theorem insertEntry_perm (name : String) (t : Table) (entries : List (String × Table)) :
    (insertEntry name t entries).Perm ((name, t) :: entries) := by
  induction entries with
  | nil => exact .refl _
  | cons e rest ih =>
      unfold insertEntry
      split
      · exact .refl _
      · exact (ih.cons e).trans (.swap ..)

namespace Database

variable {db : Database} {name : String} {t : Table}

def rowCount (db : Database) : Nat :=
  (db.tables.map fun t => t.rows.length).sum

theorem rowCount_add (new : db.table? name = none) :
    (db.add name t new).rowCount = db.rowCount + t.rows.length := by
  have tables := (insertEntry_perm name t db.entries).map Prod.snd
  have counts := tables.map fun t => t.rows.length
  exact counts.sum_nat.trans (Nat.add_comm ..)

theorem table?_drop_self : (db.drop name).table? name = none := by
  rw [table?_drop, if_pos rfl]

/-- Another table under a name is the one put there when the old one is dropped. -/
theorem replace_eq_add_drop (found : db.table? name = some t) (t' : Table) :
    db.replace name t' = (db.drop name).add name t' table?_drop_self := by
  refine eq_of_tables_eq fun other => ?_
  rw [table?_replace, table?_add, table?_drop, found]
  split <;> rfl

theorem rowCount_replace (found : db.table? name = some t) (t' : Table) :
    (db.replace name t').rowCount = (db.drop name).rowCount + t'.rows.length := by
  rw [replace_eq_add_drop found, rowCount_add]

theorem rowCount_drop (found : db.table? name = some t) :
    (db.drop name).rowCount + t.rows.length = db.rowCount := by
  rw [← rowCount_replace found t, replace_self found]

end Database

/-! ## What a statement stores and drops -/

/-- No result of the backend says that rows were stored. -/
def Backend.StoresNothing (b : Backend) : Prop :=
  ∀ plan t result, b.run plan t = .ok (some result) → result.affected = 0

def Statement.dropped (statement : Statement) (db : Database) : List Row :=
  match statement with
  | dropTable name => (db.table? name).elim [] Table.rows
  | _ => []

variable {db after : Database} {result : QueryResult} {settings : ExecutionSettings}
  {backend : Option Backend}

theorem Select.affected_interpret {query : Select} {t : Table}
    (success : query.interpret t = .ok result) : result.affected = 0 := by
  obtain ⟨below, -, projecting⟩ := bind_eq_ok_iff.mp success
  obtain ⟨rows, -, ⟨⟩⟩ := bind_eq_ok_iff.mp projecting
  rfl

theorem Select.affected_execute {query : Select} (modest : ∀ b ∈ backend, b.StoresNothing)
    (success : query.execute backend db = .ok result) : result.affected = 0 := by
  obtain ⟨t, -, answering⟩ := bind_eq_ok_iff.mp success
  cases backend with
  | none => exact affected_interpret answering
  | some b =>
      simp only at answering
      split at answering
      · rename_i given
        cases answering
        exact modest b rfl _ _ _ given
      · exact affected_interpret answering
      · exact affected_interpret answering

theorem Statement.rowCount_execute {statement : Statement}
    (modest : ∀ b ∈ backend, b.StoresNothing)
    (run : (statement.execute settings backend).run db = .ok result after) :
    UInt64.ofNat (after.rowCount + (statement.dropped db).length) =
      UInt64.ofNat db.rowCount + result.affected := by
  cases statement with
  | select query =>
      obtain ⟨success, same⟩ := run_eq_ok_iff.mp run
      rw [answerOf_select] at success
      rw [stateAfter_select] at same
      have nothing : result.affected = 0 := by
        refine Select.affected_execute (fun b asked => ?_) success
        split at asked
        · exact modest b asked
        · cases asked
      rw [nothing, same, UInt64.add_zero]
      rfl
  | insert insertion =>
      obtain ⟨t, _, added, found, -, -, -, rfl, rfl⟩ := Insert.run_execute_eq_ok_iff.mp run
      have before := Database.rowCount_drop found
      have stored : (db.replace insertion.table { t with rows := t.rows ++ added }).rowCount =
          db.rowCount + added.length := by
        rw [Database.rowCount_replace found, List.length_append]
        omega
      exact (congrArg UInt64.ofNat stored).trans (UInt64.ofNat_add ..)
  | createTable name columns =>
      obtain ⟨schema, new, -, rfl, rfl⟩ := run_createTable_eq_ok_iff.mp run
      rw [Database.rowCount_add, QueryResult.empty, UInt64.add_zero]
      rfl
  | dropTable name =>
      obtain ⟨-, rfl, rfl⟩ := run_dropTable_eq_ok_iff.mp run
      rw [QueryResult.empty, UInt64.add_zero, dropped]
      cases found : db.table? name with
      | none =>
          rw [Database.drop_missing found]
          rfl
      | some t => exact congrArg UInt64.ofNat (Database.rowCount_drop found)

/-! ## Counters -/

def rowsOf : Except Error QueryResult → List Row
  | .ok result => result.rows
  | .error _ => []

def affectedBy : Except Error QueryResult → UInt64
  | .ok result => result.affected
  | .error _ => 0

theorem Statistics.record_eq (s : Statistics) (answer : Except Error QueryResult) :
    s.record answer =
      ⟨s.statements + 1, s.failed + UInt64.ofNat (if (messageOf answer).isSome then 1 else 0),
        s.rowsReturned + UInt64.ofNat (rowsOf answer).length,
        s.rowsInserted + affectedBy answer⟩ := by
  cases answer with
  | ok result => simp [record, recordSuccess, messageOf, rowsOf, affectedBy]
  | error e => simp [record, recordFailure, messageOf, rowsOf, affectedBy]

/-! ## Sessions -/

namespace Session

variable {s : Session}

/-- The rows of the table that a text drops, if it succeeds. -/
def dropped (s : Session) (source : String) : List Row :=
  match s.read source, (s.execute source).1 with
  | .ok statement, .ok _ => statement.dropped s.database
  | _, _ => []

theorem rowCount_execute (modest : ∀ b ∈ s.backend, b.StoresNothing) (source : String) :
    UInt64.ofNat ((s.execute source).2.database.rowCount + (s.dropped source).length) =
      UInt64.ofNat s.database.rowCount + affectedBy (s.execute source).1 := by
  cases answer : (s.execute source).1 with
  | error e =>
      have nothing : s.dropped source = [] := by
        unfold dropped
        rw [answer]
        cases s.read source <;> rfl
      rw [execute_of_error answer, nothing, affectedBy, UInt64.add_zero]
      rfl
  | ok result =>
      cases read : s.read source with
      | error e =>
          rw [answer_execute, run_of_unread read] at answer
          cases answer
      | ok statement =>
          have drops : s.dropped source = statement.dropped s.database := by
            rw [dropped, read, answer]
          rw [answer_execute, run_of_read read] at answer
          rw [drops, database_execute, run_of_read read]
          exact Statement.rowCount_execute modest (run_eq_ok_iff.mpr ⟨answer, rfl⟩)

theorem executeRows_eq (s : Session) (source : String) :
    s.executeRows source =
      ((rowsOf (s.execute source).1, messageOf (s.execute source).1), (s.execute source).2) := by
  unfold executeRows
  split <;> rename_i answered <;> rw [answered] <;> rfl

/-! ### Calls -/

inductive Call where
  | request (request : Request)
  | executeRows (source : String)

/-- What is seen of one call with a text: its failure, the rows it gave back, those it dropped. -/
structure Entry where
  message : Option String
  returned : List Row
  dropped : List Row

def Entry.failed (e : Entry) : Bool :=
  e.message.isSome

def seen (s : Session) : Call → Option Entry
  | .request (.execute source) =>
      some ⟨messageOf (s.execute source).1, rowsOf (s.execute source).1, s.dropped source⟩
  | .request (.setBackend _) | .request .clearBackend => none
  | .executeRows source =>
      let (rows, message) := (s.executeRows source).1
      some ⟨message, rows, s.dropped source⟩

def afterCall (s : Session) : Call → Session
  | .request request => s.perform request
  | .executeRows source => (s.executeRows source).2

/-- What is seen of calls, and the session behind them, the failed ones included. -/
def history (s : Session) : List Call → List Entry × Session
  | [] => ([], s)
  | call :: calls =>
      let (entries, last) := (s.afterCall call).history calls
      ((s.seen call).toList ++ entries, last)

/-! ### Balance -/

/-- The counters are those of the log, up to their width, and its last entry has the last error. -/
structure Balanced (log : List Entry) (s : Session) : Prop where
  statements : s.statistics.statements = UInt64.ofNat log.length
  failed : s.statistics.failed = UInt64.ofNat (log.countP Entry.failed)
  returned : s.statistics.rowsReturned =
    UInt64.ofNat (log.map fun e => e.returned.length).sum
  inserted : s.statistics.rowsInserted =
    UInt64.ofNat (s.database.rowCount + (log.map fun e => e.dropped.length).sum)
  lastError : s.lastError = log.getLast?.bind Entry.message
  modest : ∀ b ∈ s.backend, b.StoresNothing

variable {log : List Entry}

theorem balanced_new (settings : Settings) : Balanced [] (new settings) :=
  ⟨rfl, rfl, rfl, rfl, rfl, nofun⟩

theorem Balanced.execute (h : Balanced log s) (source : String) :
    Balanced
      (log ++ [⟨messageOf (s.execute source).1, rowsOf (s.execute source).1, s.dropped source⟩])
      (s.execute source).2 where
  statements := by
    rw [statistics_execute, Statistics.record_eq, h.statements, List.length_append]
    exact (UInt64.ofNat_add ..).symm
  failed := by
    rw [statistics_execute, Statistics.record_eq, h.failed, List.countP_append, UInt64.ofNat_add,
      List.countP_singleton]
    rfl
  returned := by
    rw [statistics_execute, Statistics.record_eq, h.returned, List.map_append, List.sum_append,
      UInt64.ofNat_add]
    rfl
  inserted := by
    have conserved := rowCount_execute h.modest source
    rw [statistics_execute, Statistics.record_eq, h.inserted]
    simp only [List.map_append, List.map_cons, List.map_nil, List.sum_append, List.sum_cons,
      List.sum_nil, UInt64.ofNat_add] at conserved ⊢
    grind
  lastError := by rw [lastError_execute, List.getLast?_concat, Option.bind_some]
  modest := by
    rw [(settings_execute s source).2]
    exact h.modest

theorem Balanced.afterCall (h : Balanced log s) {call : Call}
    (modest : ∀ b, call = .request (.setBackend b) → b.StoresNothing) :
    Balanced (log ++ (s.seen call).toList) (s.afterCall call) := by
  cases call with
  | executeRows source =>
      rw [Session.afterCall, seen, executeRows_eq]
      exact h.execute source
  | request request =>
      cases request with
      | execute source => exact h.execute source
      | setBackend b =>
          rw [seen, Option.toList_none, List.append_nil]
          refine ⟨h.statements, h.failed, h.returned, h.inserted, h.lastError, ?_⟩
          rintro _ ⟨⟩
          exact modest b rfl
      | clearBackend =>
          rw [seen, Option.toList_none, List.append_nil]
          exact ⟨h.statements, h.failed, h.returned, h.inserted, h.lastError, nofun⟩

theorem Balanced.history (h : Balanced log s) {calls : List Call}
    (modest : ∀ b, .request (.setBackend b) ∈ calls → b.StoresNothing) :
    Balanced (log ++ (s.history calls).1) (s.history calls).2 := by
  induction calls generalizing s log with
  | nil =>
      rw [Session.history, List.append_nil]
      exact h
  | cons call calls ih =>
      have first := h.afterCall fun b set => modest b (set ▸ List.mem_cons_self ..)
      have later := ih first fun b member => modest b (List.mem_cons_of_mem _ member)
      rw [List.append_assoc] at later
      exact later

end Session

/--
The counters of a new session behind any calls, as far as the totals fit into them, and the message
of the last call.
-/
theorem statistics_account (settings : Settings) {calls : List Session.Call}
    (modest : ∀ b, .request (.setBackend b) ∈ calls → b.StoresNothing) :
    let log := ((Session.new settings).history calls).1
    let s := ((Session.new settings).history calls).2
    let returned := (log.map fun e => e.returned.length).sum
    let stored := s.database.rowCount + (log.map fun e => e.dropped.length).sum
    (log.length < 2 ^ 64 → s.statistics.statements.toNat = log.length) ∧
    (log.countP Session.Entry.failed < 2 ^ 64 →
      s.statistics.failed.toNat = log.countP Session.Entry.failed) ∧
    (returned < 2 ^ 64 → s.statistics.rowsReturned.toNat = returned) ∧
    (stored < 2 ^ 64 → s.statistics.rowsInserted.toNat = stored) ∧
    s.lastError = log.getLast?.bind Session.Entry.message := by
  intro log s returned stored
  have balanced : Session.Balanced log s := (Session.balanced_new settings).history modest
  refine ⟨?_, ?_, ?_, ?_, balanced.lastError⟩
  · rw [balanced.statements]
    exact UInt64.toNat_ofNat_of_lt
  · rw [balanced.failed]
    exact UInt64.toNat_ofNat_of_lt
  · rw [balanced.returned]
    exact UInt64.toNat_ofNat_of_lt
  · rw [balanced.inserted]
    exact UInt64.toNat_ofNat_of_lt

/-- Two rows are stored and dropped again, and one insertion fails. -/
theorem statistics_account_drop :
    let vacant : Backend := ⟨"vacant", fun _ _ => .ok (some .empty)⟩
    let calls : List Session.Call :=
      [.request (.setBackend vacant), .request (.execute "CREATE TABLE t (a INTEGER)"),
        .request (.execute "INSERT INTO t VALUES (1), (2)"),
        .executeRows "INSERT INTO u VALUES (3)", .executeRows "DROP TABLE t"]
    let s := ((Session.new .strict).history calls).2
    s.statistics.statements.toNat = 4 ∧ s.statistics.failed.toNat = 1 ∧
      s.statistics.rowsInserted.toNat = 2 ∧ s.lastError = none := by
  intro vacant calls s
  have modest : ∀ b, .request (.setBackend b) ∈ calls → b.StoresNothing := by
    intro b member plan t result given
    have same : b = vacant := by simpa [calls] using member
    rw [same] at given
    cases given
    rfl
  obtain ⟨statements, failed, -, stored, lastError⟩ := statistics_account .strict modest
  exact ⟨statements (by decide +kernel), (failed (by decide +kernel)).trans (by decide +kernel),
    (stored (by decide +kernel)).trans (by decide +kernel), lastError.trans (by decide +kernel)⟩

end Tabular
