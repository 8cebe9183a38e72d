import Tabular.Proofs.Session.Steps
import Tabular.Proofs.Storage.Effects

/-!
# Sessions with and without a backend

A backend takes part in the answers to queries alone.  One that gives what the interpreter gives,
where it gives anything, leaves no trace at all; and no backend leaves one in the tables.  A session
with a backend is run beside one without, which takes the same texts.
-/

namespace Tabular

/-! ## Backends -/

namespace Backend

/-- The backend leaves the plan to the interpreter: it declines, or it fails. -/
def GivesWay (b : Backend) (plan : Plan) (t : Table) : Prop :=
  b.run plan t = .ok none ∨ ∃ e, b.run plan t = .error e

/-- If the backend gives a result at all, it is the one of the interpreter. -/
def Agrees (b : Backend) (plan : Plan) (t : Table) : Prop :=
  b.GivesWay plan t ∨ ∃ result, b.run plan t = .ok (some result) ∧ plan.run t = .ok result

def Faithful (b : Backend) : Prop :=
  ∀ plan t, b.Agrees plan t

end Backend

/-! ## Queries -/

variable {settings : ExecutionSettings} {backend : Option Backend} {db : Database}

theorem Select.execute_of_agrees {query : Select}
    (agrees : ∀ b ∈ backend, ∀ t, db.table? query.source = some t →
      b.Agrees (.ofSelect query) t) :
    query.execute backend db = query.execute none db := by
  cases found : db.table? query.source with
  | none => simp only [execute, Database.table, found, bind, Except.bind]
  | some t =>
      simp only [execute, Database.table, found, bind, Except.bind]
      cases backend with
      | none => rfl
      | some b =>
          rcases agrees b rfl t found with (declined | ⟨e, failed⟩) | ⟨result, given, same⟩
          · simp only [declined]
          · simp only [failed]
          · simp only [given]
            exact same.symm

/-! ## Statements -/

variable {statement : Statement}

theorem Statement.execute_of_agrees
    (agrees : ∀ query, statement = .select query → ∀ b ∈ backend, ∀ t,
      db.table? query.source = some t → b.Agrees (.ofSelect query) t) :
    (statement.execute settings backend).run db = (statement.execute settings none).run db := by
  cases statement with
  | select query =>
      have same := Select.execute_of_agrees (agrees query rfl)
      rw [execute, execute, EStateM.run_bind, EStateM.run_bind, EStateM.run_get, ite_self]
      cases settings.useBackend with
      | true => simp only [if_true, same]
      | false => rfl
  | insert | createTable | dropTable => rfl

theorem Statement.stateAfter_execute (settings : ExecutionSettings) (backend : Option Backend)
    (statement : Statement) (db : Database) :
    stateAfter (statement.execute settings backend) db =
      stateAfter (statement.execute settings none) db := by
  cases statement with
  | select query => rw [Statement.stateAfter_select, Statement.stateAfter_select]
  | insert | createTable | dropTable => rfl

/-! ## One text -/

namespace Session

variable {s p : Session} {source : String}

/-- Two sessions over one database, the second without a backend. -/
structure Beside (s p : Session) : Prop where
  database : s.database = p.database
  settings : s.settings = p.settings
  alone : p.backend = none

theorem Beside.run_of_agrees (h : Beside s p)
    (agrees : ∀ query, s.read source = .ok (.select query) → ∀ b ∈ s.backend, ∀ t,
      s.database.table? query.source = some t → b.Agrees (.ofSelect query) t) :
    (s.run source).run s.database = (p.run source).run p.database := by
  have same := read_congr h.settings source
  cases read : s.read source with
  | error e =>
      rw [run_of_unread read, run_of_unread (same.symm.trans read), h.database]
  | ok statement =>
      rw [run_of_read read, run_of_read (same.symm.trans read), h.alone, ← h.settings, ← h.database]
      refine Statement.execute_of_agrees fun query select => ?_
      exact agrees query (read.trans (congrArg Except.ok select))

theorem Beside.stateAfter_run (h : Beside s p) (source : String) :
    stateAfter (s.run source) s.database = stateAfter (p.run source) p.database := by
  have same := read_congr h.settings source
  cases read : s.read source with
  | error e =>
      rw [run_of_unread read, run_of_unread (same.symm.trans read), h.database]
  | ok statement =>
      rw [run_of_read read, run_of_read (same.symm.trans read), h.alone, ← h.settings, ← h.database]
      exact Statement.stateAfter_execute _ _ statement _

theorem Beside.execute (h : Beside s p) (source : String) :
    Beside (s.execute source).2 (p.execute source).2 where
  database := by
    rw [database_execute, database_execute]
    exact h.stateAfter_run source
  settings := by
    rw [(settings_execute s source).1, (settings_execute p source).1]
    exact h.settings
  alone := (settings_execute p source).2.trans h.alone

theorem Beside.answer_of_agrees (h : Beside s p)
    (agrees : ∀ query, s.read source = .ok (.select query) → ∀ b ∈ s.backend, ∀ t,
      s.database.table? query.source = some t → b.Agrees (.ofSelect query) t) :
    (s.execute source).1 = (p.execute source).1 := by
  rw [answer_execute, answer_execute, answerOf, answerOf, h.run_of_agrees agrees]

/-- Two sessions that differ in nothing but a faithful backend. -/
structure Traceless (s p : Session) : Prop where
  same : s.clearBackend.2 = p
  faithful : ∀ b ∈ s.backend, b.Faithful

theorem Traceless.beside (h : Traceless s p) : Beside s p := by
  rw [← h.same]
  exact ⟨rfl, rfl, rfl⟩

theorem Traceless.answer (h : Traceless s p) (source : String) :
    (s.execute source).1 = (p.execute source).1 :=
  h.beside.answer_of_agrees fun query _ b set t _ => h.faithful b set (.ofSelect query) t

theorem Traceless.execute (h : Traceless s p) (source : String) :
    Traceless (s.execute source).2 (p.execute source).2 where
  same := by
    have answer := h.answer source
    have database := h.beside.stateAfter_run source
    rw [answer_execute, answer_execute] at answer
    rw [execute_eq, execute_eq, ← answer, ← database, ← h.same]
    rfl
  faithful := by
    rw [(settings_execute s source).2]
    exact h.faithful

/-! ## Histories -/

def Request.isText : Request → Bool
  | .execute _ => true
  | _ => false

theorem beside_new (settings : Settings) : Beside (new settings) (new settings) :=
  ⟨rfl, rfl, rfl⟩

theorem Beside.behind (h : Beside s p) (requests : List Request) :
    Beside (s.behind requests) (p.behind (requests.filter Request.isText)) := by
  induction requests generalizing s p with
  | nil => exact h
  | cons request requests ih =>
      cases request with
      | execute source => exact ih (h.execute source)
      | setBackend b => exact ih (s := s.setBackend b) ⟨h.database, h.settings, h.alone⟩
      | clearBackend => exact ih (s := s.clearBackend.2) ⟨h.database, h.settings, h.alone⟩

theorem Traceless.behind (h : Traceless s p) {requests : List Request}
    (faithful : ∀ b, .setBackend b ∈ requests → b.Faithful) :
    Traceless (s.behind requests) (p.behind (requests.filter Request.isText)) := by
  induction requests generalizing s p with
  | nil => exact h
  | cons request requests ih =>
      have later : ∀ b, .setBackend b ∈ requests → b.Faithful := fun b member =>
        faithful b (List.mem_cons_of_mem _ member)
      cases request with
      | execute source => exact ih (h.execute source) later
      | setBackend b =>
          refine ih (s := s.setBackend b) ⟨h.same, ?_⟩ later
          rintro _ ⟨⟩
          exact faithful b (List.mem_cons_self ..)
      | clearBackend => exact ih (s := s.clearBackend.2) ⟨h.same, nofun⟩ later

end Session

/--
A session with backends, beside one that takes the same texts without any.  Behind faithful backends
there is no difference at all.  Behind any others the databases are the same, and so are the answers
to all texts but the queries to which a backend gave a result of its own.
-/
theorem backends_are_optional (settings : Settings) (requests : List Session.Request)
    (source : String) :
    let s := (Session.new settings).behind requests
    let p := (Session.new settings).behind (requests.filter Session.Request.isText)
    ((∀ b, .setBackend b ∈ requests → b.Faithful) →
      (s.execute source).1 = (p.execute source).1 ∧
        (s.execute source).2.clearBackend.2 = (p.execute source).2) ∧
    (s.execute source).2.database = (p.execute source).2.database ∧
    ((∀ query, s.read source ≠ .ok (.select query)) →
      (s.execute source).1 = (p.execute source).1) ∧
    ∀ query, s.read source = .ok (.select query) →
      (∀ b ∈ s.backend, ∀ t, s.database.table? query.source = some t →
        b.GivesWay (.ofSelect query) t) →
      (s.execute source).1 = (p.execute source).1 ∧
        (s.execute source).1 = query.execute none s.database := by
  intro s p
  have beside : Session.Beside s p := (Session.beside_new settings).behind requests
  refine ⟨fun faithful => ?_, (beside.execute source).database, fun other => ?_, ?_⟩
  · have start : Session.Traceless (.new settings) (.new settings) := ⟨rfl, nofun⟩
    have traceless : Session.Traceless s p := start.behind faithful
    exact ⟨traceless.answer source, (traceless.execute source).same⟩
  · exact beside.answer_of_agrees fun query read => (other query read).elim
  · intro query read givesWay
    have agrees : ∀ b ∈ s.backend, ∀ t, s.database.table? query.source = some t →
        b.Agrees (.ofSelect query) t := fun b set t found => .inl (givesWay b set t found)
    refine ⟨beside.answer_of_agrees fun query' read' => ?_, ?_⟩
    · cases read.symm.trans read'
      exact agrees
    · rw [Session.answer_execute, Session.run_of_read read, Statement.answerOf_select]
      split
      · exact Select.execute_of_agrees agrees
      · rfl

/-- A backend that fails on every plan, and one that has no rows for any. -/
theorem backends_are_optional_broken :
    let broken : Backend := ⟨"broken", fun _ _ => .error (.backend "broken")⟩
    let vacant : Backend := ⟨"vacant", fun _ _ => .ok (some .empty)⟩
    let s := (Session.new .strict).behind [.setBackend broken]
    let s' := (Session.new .strict).behind [.setBackend vacant]
    let p := Session.new .strict
    (s.execute "SELECT * FROM t").1 = (p.execute "SELECT * FROM t").1 ∧
      (s.execute "SELECT * FROM t").1 =
        (Select.mk [.all] "t" none [] .ascending none).execute none s.database ∧
      (s'.execute "DROP TABLE t").1 = (p.execute "DROP TABLE t").1 := by
  intro broken vacant s s' p
  have faithful : ∀ b, .setBackend b ∈ [Session.Request.setBackend broken] → b.Faithful := by
    intro b member plan t
    have same : b = broken := by simpa using member
    exact same ▸ .inl (.inr ⟨_, rfl⟩)
  have query : (s.read "SELECT * FROM t").toOption =
      some (.select ⟨[.all], "t", none, [], .ascending, none⟩) := by decide +kernel
  have other : (s'.read "DROP TABLE t").toOption = some (.dropTable "t") := by decide +kernel
  obtain ⟨transparent, -, -, interpreted⟩ :=
    backends_are_optional .strict [.setBackend broken] "SELECT * FROM t"
  obtain ⟨-, -, unasked, -⟩ := backends_are_optional .strict [.setBackend vacant] "DROP TABLE t"
  refine ⟨(transparent faithful).1, ?_, ?_⟩
  · refine (interpreted _ (eq_ok_of_toOption query) fun b set t _ => ?_).2
    have same : b = broken := Option.some.inj set.symm
    exact same ▸ .inr ⟨_, rfl⟩
  · refine unasked fun query' read => ?_
    cases (eq_ok_of_toOption other).symm.trans read

end Tabular
