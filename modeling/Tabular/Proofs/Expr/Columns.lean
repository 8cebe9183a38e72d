import Tabular.Proofs.Storage.Atomicity
import Tabular.Proofs.Storage.ColumnLists

/-!
# What an expression sees

An expression reads the columns that it names and nothing else of a row.  It reads all of them,
whatever the operators above them: no operand is skipped, so outside of rows an expression with a
column in it fails, and no insertion stores a tuple with one.
-/

namespace Tabular

/-! ## Columns -/

namespace Expr

def columns : Expr → List (Option String × String)
  | literal _ => []
  | column qualifier name => [(qualifier, name)]
  | binary left _ right => left.columns ++ right.columns
  | unary _ operand => operand.columns

variable {e : Expr} {reading reading' : ColumnReading}

/-- Readings that agree on the columns of an expression give it the same value or error. -/
theorem eval_congr (same : ∀ c ∈ e.columns, reading c.1 c.2 = reading' c.1 c.2) :
    e.eval reading = e.eval reading' := by
  induction e with
  | literal v => rfl
  | column qualifier name => exact same (qualifier, name) List.mem_cons_self
  | binary left op right ihl ihr =>
      rw [columns, List.forall_mem_append] at same
      rw [eval, eval, ihl same.1, ihr same.2]
  | unary op operand ih => rw [eval, eval, ih same]

theorem exists_reading_of_eval {v : Value} (value : e.eval reading = .ok v) :
    ∀ c ∈ e.columns, ∃ w, reading c.1 c.2 = .ok w := by
  induction e generalizing v with
  | literal _ => exact fun c member => nomatch member
  | column qualifier name =>
      intro c member
      rw [List.mem_singleton.mp member]
      exact ⟨v, value⟩
  | binary left op right ihl ihr =>
      obtain ⟨_, first, rest⟩ := bind_eq_ok_iff.mp value
      obtain ⟨_, second, -⟩ := bind_eq_ok_iff.mp rest
      exact List.forall_mem_append.mpr ⟨ihl first, ihr second⟩
  | unary op operand ih =>
      obtain ⟨_, first, -⟩ := bind_eq_ok_iff.mp value
      exact ih first

theorem columns_eq_nil_of_evalConstant {v : Value} (value : e.evalConstant = .ok v) :
    e.columns = [] := by
  refine List.eq_nil_iff_forall_not_mem.mpr fun c member => ?_
  obtain ⟨w, ⟨⟩⟩ := exists_reading_of_eval value c member

end Expr

/-! ## Insertions -/

namespace Insert

variable {insertion : Insert} {s : Schema} {added : List Row}

theorem Adds.columns_eq_nil (adds : insertion.Adds s added) {tuple : List Expr} {e : Expr}
    (inside : tuple ∈ insertion.tuples) (member : e ∈ tuple) : e.columns = [] := by
  obtain ⟨⟨positions, -, made⟩, -⟩ := adds
  obtain ⟨row, -, values, constant, -⟩ := exists_of_forall₂ made inside
  obtain ⟨v, -, value⟩ := exists_of_forall₂ (mapM_eq_ok_iff.mp constant) member
  exact Expr.columns_eq_nil_of_evalConstant value

end Insert

/--
An expression has the same value, or fails alike, on two rows, of one table or of two, where each
of its columns does.  Without columns it has outside of rows what it has on every row; with one it
fails there, and an insertion with the expression in one of its tuples fails and stores nothing.
-/
theorem expressions_see_their_columns (e : Expr) :
    (∀ (t t' : Table) (row row' : Row),
      (∀ c ∈ e.columns, t.value row c.1 c.2 = t'.value row' c.1 c.2) →
      e.evalRow t row = e.evalRow t' row') ∧
    (e.columns = [] → ∀ (t : Table) (row : Row), e.evalConstant = e.evalRow t row) ∧
    (e.columns ≠ [] →
      (∃ error, e.evalConstant = .error error) ∧
      ∀ (settings : ExecutionSettings) (backend : Option Backend) (insertion : Insert),
        (∃ tuple ∈ insertion.tuples, e ∈ tuple) → ∀ db : Database,
          ∃ error, ((Statement.insert insertion).execute settings backend).run db =
            .error error db) := by
  refine ⟨fun t t' row row' same => Expr.eval_congr same, fun none t row => ?_, fun some => ?_⟩
  · refine Expr.eval_congr fun c member => ?_
    rw [none] at member
    cases member
  · constructor
    · cases value : e.evalConstant with
      | ok v => exact absurd (Expr.columns_eq_nil_of_evalConstant value) some
      | error error => exact ⟨error, rfl⟩
    · rintro settings backend insertion ⟨tuple, inside, member⟩ db
      refine (insertion.atomic_execute).exists_error fun result after run => some ?_
      obtain ⟨t, added, -, adds, -⟩ := Insert.run_execute_eq_ok_iff_adds.mp run
      exact adds.columns_eq_nil inside member

open Tabular.Expr in
/-- Rows that differ in a column that is not named, and a column behind `FALSE AND`. -/
theorem expressions_see_their_columns_and :
    let db := Database.empty.behind
      [.createTable "t" [.plain "a" .boolean, .plain "b" .integer]]
    let e := binary (literal (.boolean false)) (.connective .and) (column none "a")
    let one := literal (.integer 1)
    let insertion : Insert := ⟨"t", none, [[.literal .null, one], [e, one]]⟩
    ∃ t, db.table? "t" = some t ∧
      e.evalRow t [.boolean true, .integer 1] = e.evalRow t [.boolean true, .null] ∧
      one.evalConstant = one.evalRow t [.null, .null] ∧
      (∃ error, e.evalConstant = .error error) ∧
      ∃ error, ((Statement.insert insertion).execute Settings.strict.execution none).run db =
        .error error db := by
  intro db e one insertion
  have computed : ((db.table? "t").map fun t =>
      ((t.value [.boolean true, .integer 1] none "a").toOption,
        (t.value [.boolean true, .null] none "a").toOption)) =
      some (some (.boolean true), some (.boolean true)) := by
    decide +kernel
  obtain ⟨t, found, same⟩ := Option.map_eq_some_iff.mp computed
  obtain ⟨first, second⟩ := Prod.mk.inj same
  have alike : ∀ c ∈ e.columns, t.value [.boolean true, .integer 1] c.1 c.2 =
      t.value [.boolean true, .null] c.1 c.2 := by
    intro c member
    rw [List.mem_singleton.mp member]
    exact (eq_ok_of_toOption first).trans (eq_ok_of_toOption second).symm
  obtain ⟨sees, -, outside⟩ := expressions_see_their_columns e
  obtain ⟨-, constant, -⟩ := expressions_see_their_columns one
  obtain ⟨fails, refused⟩ := outside (List.cons_ne_nil _ _)
  have inside : ∃ tuple ∈ insertion.tuples, e ∈ tuple := ⟨[e, one], by simp [insertion], by simp⟩
  exact ⟨t, found, sees t t _ _ alike, constant rfl t _, fails, refused _ none insertion inside db⟩

end Tabular
