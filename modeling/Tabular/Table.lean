import Tabular.Schema

/-!
# Tables

A table holds rows that fit its schema: one value for each column, of the type of the column, and
`NULL` only where the column admits it.  Rows are added one or many at a time; of many, all or none.
Tables change in place: what has been changed before a failure stays changed.
-/

namespace Tabular

/-- The state behind an action, if it does not fail. -/
def stateBehind (action : EStateM ε σ α) (s : σ) : Except ε σ :=
  match action.run s with
  | .ok _ behind => .ok behind
  | .error e _ => .error e

def Column.check (c : Column) (v : Value) : Except Error Unit :=
  match v.dataType? with
  | none => if c.nullable then .ok () else .error (.nullConstraintViolation c.name)
  | some found =>
      if found = c.dataType then .ok () else .error (.typeMismatch c.name c.dataType found)

def Column.Admits (c : Column) (v : Value) : Prop :=
  match v.dataType? with
  | none => c.nullable = true
  | some found => found = c.dataType

theorem Column.check_eq_ok_iff {c : Column} {v : Value} : c.check v = .ok () ↔ c.Admits v := by
  unfold check Admits
  split <;> split <;> simp_all

/-- Checks the values of a row from the first column on. -/
def checkValues : List Column → Row → Except Error Unit
  | c :: columns, v :: row => do
      c.check v
      checkValues columns row
  | _, _ => .ok ()

structure Table where
  name : String
  schema : Schema
  rows : List Row
  deriving DecidableEq

namespace Table

def empty (name : String) (schema : Schema) : Table :=
  ⟨name, schema, []⟩

/-- Checks the width of a row, then its values. -/
def validate (t : Table) (row : Row) : Except Error Unit :=
  if row.length = t.schema.width then checkValues t.schema.columns row
  else .error (.rowWidthMismatch t.name t.schema.width row.length)

def validateAll (t : Table) : List Row → Except Error Unit
  | [] => .ok ()
  | row :: rows => do
      t.validate row
      t.validateAll rows

/-! ## Changes -/

abbrev Change := EStateM Error Table

/-- Adds a row behind the others, if it is valid. -/
def addRow (row : Row) : Change Unit := do
  ofExcept ((← get).validate row)
  modify fun t => { t with rows := t.rows ++ [row] }

/-- Adds rows behind the others, if all of them are valid, and tells how many. -/
def addRows (rows : List Row) : Change Nat := do
  ofExcept ((← get).validateAll rows)
  modify fun t => { t with rows := t.rows ++ rows }
  return rows.length

def insertRows (t : Table) (rows : List Row) : Except Error Table :=
  stateBehind (addRows rows) t

/-! ## Reading -/

/-- The value of a column in a row.  A qualifier must be the name of the table. -/
def value (t : Table) (row : Row) (qualifier : Option String) (name : String) :
    Except Error Value :=
  match qualifier with
  | some q => if q = t.name then unqualified else .error (.columnNotFound (q ++ "." ++ name))
  | none => unqualified
where
  unqualified : Except Error Value := do
    let i ← t.schema.index name
    match row[i]? with
    | some v => .ok v
    | none => .error (.columnNotFound name)

end Table

end Tabular
