import Mathlib.Data.List.Forall2
import Tabular.Proofs.Storage.Atomicity
import Tabular.Proofs.Storage.Effects

/-!
# Insertions and their parts

Which rows an insertion adds, as a relation between its tuples and the rows.  A tuple makes its row
from the schema alone, whatever is stored.  So one insertion of many tuples does what insertions of
its parts do one behind the other, and succeeds where all of them do.
-/

namespace Tabular

/-! ## Lists -/

theorem forall₂_append_left_iff {α β : Type} {R : α → β → Prop} {l l' : List α} {bs : List β} :
    List.Forall₂ R (l ++ l') bs ↔
      ∃ front back, List.Forall₂ R l front ∧ List.Forall₂ R l' back ∧ bs = front ++ back := by
  constructor
  · intro all
    refine ⟨bs.take l.length, bs.drop l.length, ?_, ?_, (List.take_append_drop _ _).symm⟩
    · simpa using List.forall₂_take l.length all
    · simpa using List.forall₂_drop l.length all
  · rintro ⟨front, back, early, late, rfl⟩
    exact List.rel_append early late

/-! ## Rows from tuples -/

namespace Insert

variable {table : String} {columns : Option (List String)} {tuples : List (List Expr)}
  {s : Schema} {positions : Option (List Nat)}

/-- The row has the values at the positions, or it is the values if no positions are given. -/
def Spreads (width : Nat) (positions : Option (List Nat)) (values : List Value) (row : Row) :
    Prop :=
  match positions with
  | none => row = values
  | some ps => values.length = ps.length ∧ row = spreadRow width ps values

/-- The expressions of the tuple have values, and the row spreads them. -/
def Makes (s : Schema) (positions : Option (List Nat)) (tuple : List Expr) (row : Row) : Prop :=
  ∃ values, tuple.mapM Expr.evalConstant = .ok values ∧ Spreads s.width positions values row

/-- The rows are made of the tuples, each of one, and the schema admits them. -/
def Adds (insertion : Insert) (s : Schema) (added : List Row) : Prop :=
  (∃ positions, insertion.columns.mapM (s.positionsOf []) = .ok positions ∧
    List.Forall₂ (Makes s positions) insertion.tuples added) ∧
  ∀ row ∈ added, s.Admits row

theorem row_eq_ok_iff {insertion : Insert} {values : List Value} {row : Row} :
    insertion.row s.width positions values = .ok row ↔ Spreads s.width positions values row := by
  cases positions with
  | none => exact ok_eq_ok_iff
  | some ps =>
      by_cases width : values.length = ps.length
      · simp [Insert.row, Spreads, width, eq_comm]
      · simp [Insert.row, Spreads, width]

theorem rows_eq_ok_iff {insertion : Insert} {added : List Row} :
    insertion.rows s.width positions tuples = .ok added ↔
      List.Forall₂ (Makes s positions) tuples added := by
  induction tuples generalizing added with
  | nil =>
      rw [rows, List.forall₂_nil_left_iff]
      exact ok_eq_ok_iff
  | cons tuple tuples ih =>
      simp only [rows, bind_eq_ok_iff, row_eq_ok_iff, List.forall₂_cons_left_iff]
      constructor
      · rintro ⟨values, constant, row, spread, others, rest, ⟨⟩⟩
        exact ⟨row, others, ⟨values, constant, spread⟩, ih.mp rest, rfl⟩
      · rintro ⟨row, others, ⟨values, constant, spread⟩, rest, rfl⟩
        exact ⟨values, constant, row, spread, others, ih.mpr rest, rfl⟩

/-- A successful insertion adds its rows behind those of its table, and counts them. -/
theorem run_execute_eq_ok_iff_adds {db after : Database} {result : QueryResult} :
    (mk table columns tuples).execute.run db = .ok result after ↔
      ∃ t added, db.table? table = some t ∧ (mk table columns tuples).Adds t.schema added ∧
        result = .stored added.length ∧
        after = db.replace table { t with rows := t.rows ++ added } := by
  simp only [run_execute_eq_ok_iff, Adds, rows_eq_ok_iff, Table.validateAll_eq_ok_iff]
  constructor
  · rintro ⟨t, positions, added, found, resolved, made, valid, stored⟩
    exact ⟨t, added, found, ⟨⟨positions, resolved, made⟩, valid⟩, stored⟩
  · rintro ⟨t, added, found, ⟨⟨positions, resolved, made⟩, valid⟩, stored⟩
    exact ⟨t, positions, added, found, resolved, made, valid, stored⟩

theorem adds_append_iff {first second : List (List Expr)} {added : List Row} :
    (mk table columns (first ++ second)).Adds s added ↔
      ∃ front back, (mk table columns first).Adds s front ∧
        (mk table columns second).Adds s back ∧ added = front ++ back := by
  constructor
  · rintro ⟨⟨positions, resolved, made⟩, valid⟩
    obtain ⟨front, back, early, late, rfl⟩ := forall₂_append_left_iff.mp made
    obtain ⟨here, there⟩ := List.forall_mem_append.mp valid
    exact ⟨front, back, ⟨⟨positions, resolved, early⟩, here⟩, ⟨⟨positions, resolved, late⟩, there⟩,
      rfl⟩
  · rintro ⟨front, back, ⟨⟨positions, resolved, early⟩, here⟩,
      ⟨⟨positions', resolved', late⟩, there⟩, rfl⟩
    obtain rfl : positions = positions' := Except.ok.inj (resolved.symm.trans resolved')
    have made := forall₂_append_left_iff.mpr ⟨front, back, early, late, rfl⟩
    exact ⟨⟨positions, resolved, made⟩, List.forall_mem_append.mpr ⟨here, there⟩⟩

end Insert

/-! ## Insertions in two parts -/

theorem Insert.run_execute_behind_eq_ok_iff {table : String} {columns : Option (List String)}
    {tuples : List (List Expr)} {db after : Database} {t : Table} {result : QueryResult}
    (found : db.table? table = some t) (front : List Row) :
    (mk table columns tuples).execute.run (db.replace table { t with rows := t.rows ++ front }) =
        .ok result after ↔
      ∃ back, (mk table columns tuples).Adds t.schema back ∧ result = .stored back.length ∧
        after = db.replace table { t with rows := t.rows ++ (front ++ back) } := by
  have between : (db.replace table { t with rows := t.rows ++ front }).table? table =
      some { t with rows := t.rows ++ front } := by
    rw [Database.table?_replace, if_pos rfl, found, Option.map_some]
  rw [run_execute_eq_ok_iff_adds]
  constructor
  · rintro ⟨t', back, looked, adds, counted, stored⟩
    obtain rfl := Option.some.inj (between.symm.trans looked)
    rw [Database.replace_replace, List.append_assoc] at stored
    exact ⟨back, adds, counted, stored⟩
  · rintro ⟨back, adds, counted, stored⟩
    refine ⟨_, back, between, adds, counted, ?_⟩
    rw [Database.replace_replace, List.append_assoc]
    exact stored

theorem QueryResult.affected_stored_add (m n : Nat) :
    (stored (m + n)).affected = (stored m).affected + (stored n).affected :=
  UInt64.ofNat_add m n

/--
One insertion of the tuples of two lists succeeds where insertions of the lists do, one behind the
other.  It leaves the same database, and stores as many rows as both of them.  Where it fails it
stores none.
-/
theorem insertion_is_its_parts (settings : ExecutionSettings) (backend : Option Backend)
    (table : String) (columns : Option (List String)) (first second : List (List Expr)) :
    let insert (tuples : List (List Expr)) : Database.Change QueryResult :=
      (Statement.insert ⟨table, columns, tuples⟩).execute settings backend
    (∀ (db after : Database) (count : UInt64),
      (do return (← insert (first ++ second)).affected).run db = .ok count after ↔
        (do return (← insert first).affected + (← insert second).affected).run db =
          .ok count after) ∧
    Atomic (insert (first ++ second)) := by
  intro insert
  refine ⟨fun db after count => ?_, Insert.atomic_execute _⟩
  constructor
  · intro whole
    obtain ⟨_, _, run, ⟨⟩⟩ := run_bind_eq_ok_iff.mp whole
    obtain ⟨t, _, found, adds, rfl, rfl⟩ := Insert.run_execute_eq_ok_iff_adds.mp run
    obtain ⟨front, back, early, late, rfl⟩ := Insert.adds_append_iff.mp adds
    have here := Insert.run_execute_eq_ok_iff_adds.mpr ⟨t, front, found, early, rfl, rfl⟩
    have there := (Insert.run_execute_behind_eq_ok_iff found front).mpr ⟨back, late, rfl, rfl⟩
    refine run_bind_eq_ok_iff.mpr ⟨_, _, here, run_bind_eq_ok_iff.mpr ⟨_, _, there, ?_⟩⟩
    rw [List.length_append, QueryResult.affected_stored_add]
    rfl
  · intro parts
    obtain ⟨_, _, here, rest⟩ := run_bind_eq_ok_iff.mp parts
    obtain ⟨_, _, there, ⟨⟩⟩ := run_bind_eq_ok_iff.mp rest
    obtain ⟨t, front, found, early, rfl, rfl⟩ := Insert.run_execute_eq_ok_iff_adds.mp here
    obtain ⟨back, late, rfl, rfl⟩ := (Insert.run_execute_behind_eq_ok_iff found front).mp there
    have adds := Insert.adds_append_iff.mpr ⟨front, back, early, late, rfl⟩
    have run := Insert.run_execute_eq_ok_iff_adds.mpr ⟨t, _, found, adds, rfl, rfl⟩
    refine run_bind_eq_ok_iff.mpr ⟨_, _, run, ?_⟩
    rw [List.length_append, QueryResult.affected_stored_add]
    rfl

end Tabular
