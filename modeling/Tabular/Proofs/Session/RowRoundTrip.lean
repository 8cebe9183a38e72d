import Tabular.Proofs.Reading.Statement
import Tabular.Proofs.Query.Interpretation
import Tabular.Proofs.Rendering.Rows
import Tabular.Proofs.Session.Steps
import Tabular.Proofs.Storage.Effects

/-!
# Rows written as SQL and read back

A row that a table takes can be written into it by the text of an insertion, and a query gives it
back behind the others, unless one of its values is the least integer.  An insertion needs at least
one value; a table that a session can reach has at least one column, because the grammar gives no
others.
-/

namespace Tabular

open Tabular.Expr Tabular.Grammar

/-! ## Texts that a session reads -/

namespace Session

variable {source : String} {kinds : List TokenKind} {statement : Statement}

theorem read_of_scans (scanned : Scans (· = []) source.toList kinds)
    (phrase : IsSentence kinds statement) (s : Session) : s.read source = .ok statement := by
  obtain ⟨tokens, lexed, same⟩ := tokenize_of_scans scanned
  have lexed' : tokenize source s.mode = .ok tokens := by
    cases s.mode with
    | strict => exact lexed
    | permissive => exact tokenize_permissive lexed
  rw [read_of_tokens lexed']
  exact Statement.ofTokens_of_isSentence same phrase

theorem unread_of_scans (scanned : Scans Faulty source.toList kinds) (s : Session) :
    ∃ e, s.read source = .error e := by
  obtain ⟨e, fault⟩ := tokenize_of_scans_faulty scanned s.mode
  exact ⟨e, by rw [read, fault]; rfl⟩

end Session

/-! ## Columns -/

theorem Grammar.CommaList.ne_nil {α : Type} {item : List TokenKind → α → Prop}
    {kinds : List TokenKind} {as : List α} (h : CommaList item kinds as) : as ≠ [] := by
  cases h <;> exact List.cons_ne_nil _ _

def Table.HasColumns (t : Table) : Prop :=
  t.schema.columns ≠ []

theorem Table.keeps_hasColumns (rows : List Row) : Keeps HasColumns (addRows rows) := by
  intro t h
  rw [stateAfter_addRows]
  cases t.validateAll rows with
  | ok _ => exact h
  | error e => exact h

namespace Session

theorem columns_of_read {s : Session} {source name : String} {columns : List Column}
    (read : s.read source = .ok (.createTable name columns)) : columns ≠ [] := by
  obtain ⟨tokens, -, parsed⟩ := bind_eq_ok_iff.mp read
  obtain ⟨behind, run⟩ := Parse.answer_eq_ok_iff.mp parsed
  obtain ⟨kinds, -, phrase, -⟩ := Statement.run_parse_eq_ok_iff.mp run
  obtain ⟨_, phrase⟩ : ∃ kinds, IsStatement kinds (.createTable name columns) := by
    cases phrase with
    | unterminated phrase | terminated phrase => exact ⟨_, phrase⟩
  cases phrase with
  | createTable listed =>
      obtain ⟨_, -, _, -, columns⟩ := listed
      exact columns.ne_nil

theorem keeps_hasColumns (s : Session) (source : String) :
    Keeps (Database.All fun _ t => t.HasColumns) (s.run source) := by
  cases read : s.read source with
  | error e =>
      rw [run_of_unread read]
      exact keeps_throw e
  | ok statement =>
      rw [run_of_read read]
      -- Only here the text matters: without its grammar a table might have no columns.
      refine Statement.keeps_execute _ _ (fun name columns schema create built => ?_) fun _ =>
        Table.keeps_hasColumns
      have given := columns_of_read (create ▸ read)
      rw [Table.HasColumns, Table.empty, Schema.columns_ofColumns built]
      exact given

end Session

/-! ## Insertion and query -/

variable {db : Database} {name : String} {t : Table} {row : Row}

theorem mapM_evalConstant_signedLiteral (literals : ∀ v ∈ row, HasLiteral v) :
    (row.map signedLiteral).mapM Expr.evalConstant = .ok row := by
  induction row with
  | nil => rfl
  | cons v row ih =>
      obtain ⟨first, others⟩ := List.forall_mem_cons.mp literals
      have value : (signedLiteral v).evalConstant = .ok v := eval_signedLiteral first _
      rw [List.map_cons, List.mapM_cons, value, ih others]
      rfl

theorem run_insertOf (found : db.table? name = some t) (valid : t.validate row = .ok ())
    (literals : ∀ v ∈ row, HasLiteral v) :
    (insertOf name row).execute.run db =
      .ok (.stored 1) (db.replace name { t with rows := t.rows ++ [row] }) := by
  have values := mapM_evalConstant_signedLiteral literals
  have built : (insertOf name row).rows t.schema.width none [row.map signedLiteral] =
      .ok [row] := by
    rw [Insert.rows, values]
    rfl
  have admitted := Table.validate_eq_ok_iff.mp valid
  refine Insert.run_execute_eq_ok_iff.mpr ⟨t, none, [row], found, rfl, built, ?_, rfl, rfl⟩
  exact Table.validateAll_eq_ok_iff.mpr (List.forall_mem_singleton.mpr admitted)

theorem execute_selectOf (found : db.table? name = some t) :
    (selectOf name).execute none db = .ok ⟨t.schema.columnNames, t.rows, 0⟩ := by
  have shown := projectRows_all t t.rows
  have columns : [SelectItem.all].flatMap (·.names t.schema) = t.schema.columnNames :=
    List.append_nil _
  refine bind_eq_ok_iff.mpr ⟨t, Database.table_eq_ok_iff.mpr found, ?_⟩
  change (do return ⟨_, ← projectRows t [.all] t.rows, 0⟩ : Except Error QueryResult) = _
  rw [shown]
  exact congrArg (fun names => Except.ok (QueryResult.mk names t.rows 0)) columns

theorem least_or_hasLiteral {v : Value}
    (finite : ∀ x, v = .real x → Binary64.isFinite x = true) :
    v = .integer Int64.minValue ∨ HasLiteral v := by
  cases v with
  | integer n =>
      by_cases least : n = Int64.minValue
      · exact .inl (congrArg Value.integer least)
      · have bound := n.le_toInt
        have apart : n.toInt ≠ Int64.minValue.toInt := fun same => least (Int64.toInt_inj.mp same)
        have value : Int64.minValue.toInt = -2 ^ 63 := by decide
        refine .inr (?_ : -2 ^ 63 < n.toInt)
        omega
  | real x => exact .inr (finite x rfl)
  | null | text | boolean => exact .inr trivial

/-! ## Reachable sessions -/

namespace Session

variable {s : Session}

theorem execute_insertText (identifier : IsIdentifier name)
    (found : s.database.table? name = some t) (given : row ≠ []) (valid : t.validate row = .ok ())
    (literals : ∀ v ∈ row, HasLiteral v) :
    (s.execute (insertText name row)).1 = .ok (.stored 1) ∧
      (s.execute (insertText name row)).2.database =
        s.database.replace name { t with rows := t.rows ++ [row] } := by
  have scanned := scans_insertText identifier given literals
  have read := read_of_scans scanned (isSentence_insert name given) s
  have run := run_eq_ok_iff.mp (run_insertOf found valid literals)
  rw [answer_execute, database_execute, run_of_read read]
  exact run

theorem answer_selectText (alone : s.backend = none) (identifier : IsIdentifier name)
    (found : s.database.table? name = some t) :
    (s.execute (selectText name)).1 = .ok ⟨t.schema.columnNames, t.rows, 0⟩ := by
  have read := read_of_scans (scans_selectText identifier) (isSentence_select name) s
  rw [answer_execute, run_of_read read, alone, Statement.answerOf_select, ite_self]
  exact execute_selectOf found

theorem answer_insertText_least (identifier : IsIdentifier name)
    (literals : ∀ v ∈ row, v = .integer Int64.minValue ∨ HasLiteral v)
    (least : .integer Int64.minValue ∈ row) :
    ∃ e, (s.execute (insertText name row)).1 = .error e := by
  obtain ⟨kinds, scanned⟩ := scans_insertText_least identifier literals least
  obtain ⟨e, unread⟩ := unread_of_scans scanned s
  exact ⟨e, by rw [answer_execute, run_of_unread unread]; rfl⟩

end Session

/--
A row that a table takes, and whose reals are finite, is stored by the text of its insertion and
given back behind the rows before it, if and only if none of its values is the least integer.
-/
theorem written_row_reads_back {settings : Settings} {requests : List Session.Request}
    {name : String} {t : Table} {row : Row} (identifier : IsIdentifier name)
    (found : ((Session.new settings).behind requests).database.table? name = some t)
    (valid : t.validate row = .ok ())
    (finite : ∀ x, .real x ∈ row → Binary64.isFinite x = true) :
    let s := (Session.new settings).behind requests
    let inserted := s.execute (insertText name row)
    let selected := inserted.2.clearBackend.2.execute (selectText name)
    inserted.1 = .ok (.stored 1) ∧ selected.1 = .ok ⟨t.schema.columnNames, t.rows ++ [row], 0⟩ ↔
      .integer Int64.minValue ∉ row := by
  intro s inserted selected
  have literals : ∀ v ∈ row, v = .integer Int64.minValue ∨ HasLiteral v := fun v member =>
    least_or_hasLiteral fun x real => finite x (real ▸ member)
  constructor
  · rintro ⟨stored, -⟩ least
    obtain ⟨e, failed⟩ := Session.answer_insertText_least identifier literals least
    cases stored.symm.trans failed
  · intro readable
    have columns : t.HasColumns :=
      Session.keeps_behind (s := .new settings) Session.keeps_hasColumns Database.all_empty
        requests name t found
    have given : row ≠ [] := by
      have width := (Table.validate_eq_ok_iff.mp valid).1
      rintro rfl
      exact columns (List.eq_nil_of_length_eq_zero width.symm)
    have literals : ∀ v ∈ row, HasLiteral v := fun v member =>
      (literals v member).resolve_left fun least => readable (least ▸ member)
    obtain ⟨stored, database⟩ := Session.execute_insertText identifier found given valid literals
    have behind : inserted.2.clearBackend.2.database.table? name =
        some { t with rows := t.rows ++ [row] } := by
      change inserted.2.database.table? name = _
      rw [database, Database.table?_replace, if_pos rfl, found]
      rfl
    exact ⟨stored, Session.answer_selectText rfl identifier behind⟩

/-- A negative number, a text with a quote and a backslash, a negative zero and `NULL`. -/
theorem written_row_reads_back_signs :
    let s := (Session.new .strict).behind
      [.execute "CREATE TABLE t (a INTEGER, b TEXT, c REAL, d BOOLEAN)"]
    let row : Row :=
      [.integer (-5), .text "it's \\", .real (Binary64.ofParts true 0), .null]
    let inserted := s.execute (insertText "t" row)
    inserted.1 = .ok (.stored 1) ∧
      (inserted.2.clearBackend.2.execute (selectText "t")).1 =
        .ok ⟨["a", "b", "c", "d"], [row], 0⟩ := by
  intro s row inserted
  have table : ((s.database.table? "t").map fun t =>
      (t.schema.columnNames, t.rows, (t.validate row).toOption)) =
        some (["a", "b", "c", "d"], [], some ()) := by decide +kernel
  obtain ⟨t, found, same⟩ := Option.map_eq_some_iff.mp table
  obtain ⟨names, rows, valid⟩ : t.schema.columnNames = _ ∧ t.rows = _ ∧ _ := by
    simpa only [Prod.mk.injEq] using same
  have finite : ∀ x, .real x ∈ row → Binary64.isFinite x = true := by
    intro x member
    have zero : x = Binary64.ofParts true 0 := by simpa [row] using member
    rw [zero]
    decide +kernel
  have readable : .integer Int64.minValue ∉ row := by decide +kernel
  have identifier : IsIdentifier "t" := ⟨rfl, by decide +kernel⟩
  have valid := eq_ok_of_toOption valid
  have back := (written_row_reads_back identifier found valid finite).mpr readable
  rw [names, rows] at back
  exact back

/-- The least integer is a value of its type, but no insertion writes it. -/
theorem written_row_reads_back_fails :
    let s := (Session.new .strict).behind [.execute "CREATE TABLE t (a INTEGER)"]
    let row : Row := [.integer Int64.minValue]
    ∃ t, s.database.table? "t" = some t ∧ t.validate row = .ok () ∧ IsIdentifier "t" ∧
      (∀ x, .real x ∈ row → Binary64.isFinite x = true) ∧
      (s.execute (insertText "t" row)).1 ≠ .ok (.stored 1) := by
  intro s row
  have table : ((s.database.table? "t").map fun t => (t.validate row).toOption) =
      some (some ()) := by decide +kernel
  obtain ⟨t, found, valid⟩ := Option.map_eq_some_iff.mp table
  have identifier : IsIdentifier "t" := ⟨rfl, by decide +kernel⟩
  have least : ∀ v ∈ row, v = .integer Int64.minValue ∨ HasLiteral v := by simp [row]
  obtain ⟨e, failed⟩ :=
    Session.answer_insertText_least (s := s) identifier least (List.mem_cons_self ..)
  refine ⟨t, found, eq_ok_of_toOption valid, identifier, by simp [row], ?_⟩
  rw [failed]
  exact nofun

end Tabular
