import Tabular.Database
import Tabular.Plan.Run
import Tabular.Settings.Basic

/-!
# Executing statements

A statement changes a database in place and gives a result or an error.
-/

namespace Tabular

/--
Something that may run plans in place of the interpreter: it gives a result, or declines, or
fails.
-/
structure Backend where
  name : String
  run : Plan → Table → Except Error (Option QueryResult)

/-! ## Insertions -/

/-- The positions of named columns; a name may occur once, and `seen` holds those before. -/
def Schema.positionsOf (s : Schema) (seen : List String) : List String → Except Error (List Nat)
  | [] => .ok []
  | name :: names => do
      if name ∈ seen then throw (.duplicateColumn name)
      let first ← s.index name
      let others ← s.positionsOf (name :: seen) names
      return first :: others

/-- The row of a schema that has `values` at `positions`, and `NULL` elsewhere. -/
def spreadRow (width : Nat) (positions : List Nat) (values : List Value) : Row :=
  (List.range width).map fun i =>
    match positions.idxOf? i with
    | some k => values.getD k .null
    | none => .null

namespace Insert

/-- The row that a tuple of values makes.  With named columns there must be a value for each. -/
def row (insertion : Insert) (width : Nat) (positions : Option (List Nat)) (values : List Value) :
    Except Error Row :=
  match positions with
  | none => .ok values
  | some ps =>
      if values.length = ps.length then .ok (spreadRow width ps values)
      else .error (.rowWidthMismatch insertion.table ps.length values.length)

/-- The rows that the tuples make, in turn. -/
def rows (insertion : Insert) (width : Nat) (positions : Option (List Nat)) :
    List (List Expr) → Except Error (List Row)
  | [] => .ok []
  | tuple :: tuples => do
      let values ← tuple.mapM Expr.evalConstant
      let first ← insertion.row width positions values
      let others ← insertion.rows width positions tuples
      return first :: others

def execute (insertion : Insert) : Database.Change QueryResult := do
  let t ← ofExcept ((← get).table insertion.table)
  let positions ← ofExcept (insertion.columns.mapM (t.schema.positionsOf []))
  let added ← ofExcept (insertion.rows t.schema.width positions insertion.tuples)
  let count ← Database.inTable insertion.table (Table.addRows added)
  return .stored count

end Insert

/-! ## Queries -/

namespace Select

def interpret (query : Select) (t : Table) : Except Error QueryResult :=
  (Plan.ofSelect query).run t

/-- Runs a query.  A backend is asked first; where it declines or fails, the plan is interpreted. -/
def execute (query : Select) (backend : Option Backend) (db : Database) :
    Except Error QueryResult := do
  let t ← db.table query.source
  match backend with
  | none => query.interpret t
  | some b =>
      match b.run (Plan.ofSelect query) t with
      | .ok (some result) => return result
      | .ok none | .error _ => query.interpret t

end Select

/-! ## Statements -/

namespace Statement

/-- Executes a statement.  The backend takes part only if the settings say so. -/
def execute (settings : ExecutionSettings) (backend : Option Backend) :
    Statement → Database.Change QueryResult
  | select query => do
      ofExcept (query.execute (if settings.useBackend then backend else none) (← get))
  | insert insertion => insertion.execute
  | createTable name columns => do
      let schema ← ofExcept (Schema.ofColumns columns)
      Database.createTable name schema
      return .empty
  | dropTable name => do
      if (← Database.dropTable name).isNone && settings.errorOnMissingDrop then
        throw (.tableNotFound name)
      return .empty

end Statement

end Tabular
