import Tabular.Proofs.Session.Steps
import Tabular.Proofs.Tokens.Tokenizing

/-!
# The two profiles

A text that a strict lexer reads is read the same by a permissive one, and only a drop of a missing
table is executed differently.  That drop changes nothing in either profile, so two sessions that
run the same texts keep the same database.
-/

namespace Tabular

/-! ## Statements -/

section Statements

variable {db : Database} {name : String}

theorem run_dropTable_missing (settings : ExecutionSettings) (missing : db.table? name = none) :
    ((Statement.dropTable name).execute settings none).run db =
      if settings.errorOnMissingDrop then .error (.tableNotFound name) db else .ok .empty db := by
  simp only [Statement.execute, EStateM.run_bind, Database.run_dropTable, missing,
    Database.drop_missing missing]
  cases settings.errorOnMissingDrop <;> rfl

theorem run_execute_congr (statement : Statement) (settings settings' : ExecutionSettings)
    (present : ∀ name, statement = .dropTable name → db.table? name ≠ none) :
    (statement.execute settings none).run db = (statement.execute settings' none).run db := by
  cases statement with
  -- With no backend to ask, it does not matter whether it would be asked.
  | select query => simp only [Statement.execute, ite_self]
  | insert insertion => rfl
  | createTable name columns => rfl
  | dropTable name =>
      obtain ⟨t, found⟩ := Option.ne_none_iff_exists'.mp (present name rfl)
      simp only [Statement.execute, EStateM.run_bind, Database.run_dropTable, found]
      rfl

end Statements

/-! ## Sessions -/

namespace Session

/-- The text is a drop of a table that the database does not have. -/
def DropsMissing (db : Database) (source name : String) : Prop :=
  db.table? name = none ∧
    ∃ tokens, tokenize source .strict = .ok tokens ∧
      Statement.ofTokens tokens = .ok (.dropTable name)

/-- Two sessions of the two profiles, over the same database and without a backend. -/
structure Twins (s p : Session) : Prop where
  database : s.database = p.database
  strict : s.settings = .strict
  permissive : p.settings = .permissive
  alone : s.backend = none ∧ p.backend = none

variable {s p : Session} {source name : String} {tokens : List Token}

/-! ### One text -/

theorem Twins.read (h : Twins s p) (lexed : tokenize source .strict = .ok tokens) :
    s.read source = Statement.ofTokens tokens ∧ p.read source = Statement.ofTokens tokens := by
  have permissively := tokenize_permissive lexed
  constructor
  · exact read_of_tokens (by rw [mode, h.strict]; exact lexed)
  · exact read_of_tokens (by rw [mode, h.permissive]; exact permissively)

theorem Twins.run_of_dropsMissing (h : Twins s p) (drops : DropsMissing s.database source name) :
    (s.run source).run s.database = .error (.tableNotFound name) s.database ∧
      (p.run source).run p.database = .ok .empty p.database := by
  obtain ⟨absent, tokens, lexed, parsed⟩ := drops
  obtain ⟨strictly, permissively⟩ := h.read lexed
  rw [run_of_read (strictly.trans parsed), run_of_read (permissively.trans parsed), h.strict,
    h.permissive, h.alone.1, h.alone.2, ← h.database]
  exact ⟨run_dropTable_missing _ absent, run_dropTable_missing _ absent⟩

theorem Twins.run_of_present (h : Twins s p) (lexed : tokenize source .strict = .ok tokens)
    (present : ∀ name, ¬ DropsMissing s.database source name) :
    (s.run source).run s.database = (p.run source).run p.database := by
  obtain ⟨strictly, permissively⟩ := h.read lexed
  cases parsed : Statement.ofTokens tokens with
  | error e =>
      rw [run_of_unread (strictly.trans parsed), run_of_unread (permissively.trans parsed),
        h.database]
  | ok statement =>
      rw [run_of_read (strictly.trans parsed), run_of_read (permissively.trans parsed), h.alone.1,
        h.alone.2, ← h.database]
      refine run_execute_congr statement _ _ ?_
      rintro name rfl absent
      exact present name ⟨absent, tokens, lexed, parsed⟩

/-- What twins answer to a text, and the databases behind it. -/
structure Agree (s p : Session) (source : String) : Prop where
  database : (s.execute source).2.database = (p.execute source).2.database
  missing : ∀ name, DropsMissing s.database source name →
    (s.execute source).1 = .error (.tableNotFound name) ∧ (p.execute source).1 = .ok .empty
  answer : (∀ name, ¬ DropsMissing s.database source name) →
    (s.execute source).1 = (p.execute source).1

theorem Twins.agree (h : Twins s p) (lexed : tokenize source .strict = .ok tokens) :
    Agree s p source where
  database := by
    rw [database_execute, database_execute, stateAfter, stateAfter]
    by_cases missing : ∃ name, DropsMissing s.database source name
    · obtain ⟨name, drops⟩ := missing
      obtain ⟨refused, dropped⟩ := h.run_of_dropsMissing drops
      rw [refused, dropped]
      exact h.database
    · rw [h.run_of_present lexed (not_exists.mp missing)]
  missing name drops := by
    obtain ⟨refused, dropped⟩ := h.run_of_dropsMissing drops
    rw [answer_execute, answer_execute, answerOf, answerOf, refused, dropped]
    exact ⟨rfl, rfl⟩
  answer present := by
    rw [answer_execute, answer_execute, answerOf, answerOf, h.run_of_present lexed present]

/-! ### Histories -/

theorem twins_new : Twins (Session.new .strict) (Session.new .permissive) :=
  ⟨rfl, rfl, rfl, rfl, rfl⟩

theorem Twins.execute (h : Twins s p) (lexed : tokenize source .strict = .ok tokens) :
    Twins (s.execute source).2 (p.execute source).2 := by
  obtain ⟨settings, backend⟩ := settings_execute s source
  obtain ⟨settings', backend'⟩ := settings_execute p source
  exact ⟨(h.agree lexed).database, settings.trans h.strict, settings'.trans h.permissive,
    backend.trans h.alone.1, backend'.trans h.alone.2⟩

theorem Twins.behind {sources : List String} (h : Twins s p)
    (lexed : ∀ source ∈ sources, ∃ tokens, tokenize source .strict = .ok tokens) :
    Twins (s.behind (sources.map .execute)) (p.behind (sources.map .execute)) := by
  induction sources generalizing s p with
  | nil => exact h
  | cons source sources ih =>
      obtain ⟨⟨tokens, first⟩, others⟩ := List.forall_mem_cons.mp lexed
      exact ih (h.execute first) others

end Session

/--
Over texts that a strict lexer reads, the profiles agree: behind every one of them the databases are
the same, and so are the answers, but to a drop of a missing table.
-/
theorem permissive_loosens {sources before after : List String} {source : String}
    (lexed : ∀ source ∈ sources, ∃ tokens, tokenize source .strict = .ok tokens)
    (history : sources = before ++ source :: after) :
    Session.Agree ((Session.new .strict).behind (before.map .execute))
      ((Session.new .permissive).behind (before.map .execute)) source := by
  subst history
  obtain ⟨earlier, later⟩ := List.forall_mem_append.mp lexed
  obtain ⟨⟨tokens, now⟩, -⟩ := List.forall_mem_cons.mp later
  exact (Session.twins_new.behind earlier).agree now

/-- A drop of a missing table, behind a query that fails in both profiles. -/
theorem permissive_loosens_drop :
    let s := (Session.new .strict).behind [.execute "SELECT * FROM t"]
    let p := (Session.new .permissive).behind [.execute "SELECT * FROM t"]
    (s.execute "DROP TABLE t").1 = .error (.tableNotFound "t") ∧
      (p.execute "DROP TABLE t").1 = .ok .empty ∧
      (s.execute "DROP TABLE t").2.database = (p.execute "DROP TABLE t").2.database := by
  intro s p
  have lexed : ∀ source ∈ ["SELECT * FROM t", "DROP TABLE t"],
      (tokenize source .strict).isOk = true := by decide +kernel
  have agree : Session.Agree s p "DROP TABLE t" :=
    @permissive_loosens _ ["SELECT * FROM t"] [] _
      (fun source member => exists_ok (lexed source member)) rfl
  have read : (tokenize "DROP TABLE t" .strict).toOption =
      some [⟨.keyword .drop, "DROP", ⟨0, 1, 1⟩⟩, ⟨.keyword .table, "TABLE", ⟨5, 1, 6⟩⟩,
        ⟨.identifier "t", "t", ⟨11, 1, 12⟩⟩, ⟨.endMarker, "", ⟨12, 1, 13⟩⟩] := by decide +kernel
  have absent : s.database.table? "t" = none := by decide +kernel
  obtain ⟨refused, dropped⟩ := agree.missing "t" ⟨absent, _, eq_ok_of_toOption read, rfl⟩
  exact ⟨refused, dropped, agree.database⟩

end Tabular
