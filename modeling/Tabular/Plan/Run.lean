import Tabular.Expr.Eval
import Tabular.Plan.Basic
import Tabular.QueryResult
import Tabular.Value.Order

/-!
# Running plans

Every step below a projection gives whole rows of the table.  A filter keeps the rows on which it is
true, a sort is stable, and a projection gives the result its columns.
-/

namespace Tabular

/-! ## Steps on rows -/

/-- The rows on which the condition is true; a row where it fails fails the whole. -/
def keepTrue (condition : Row → Except Error Value) : List Row → Except Error (List Row)
  | [] => .ok []
  | row :: rows => do
      let v ← condition row
      let kept ← keepTrue condition rows
      return if v = .boolean true then row :: kept else kept

def Table.scan (t : Table) : Option Expr → Except Error (List Row)
  | some filter => keepTrue (fun row => filter.evalRow t row) t.rows
  | none => .ok t.rows

def compareAt : List Nat → Row → Row → Ordering
  | [], _, _ => .eq
  | i :: positions, v, w =>
      (compare (v.getD i .null) (w.getD i .null)).then (compareAt positions v w)

def Direction.orient : Direction → Ordering → Ordering
  | ascending, o => o
  | descending, o => o.swap

/-- The rows sorted by the values at some positions; equal rows keep their order. -/
def sortRows (positions : List Nat) (direction : Direction) (rows : List Row) : List Row :=
  rows.mergeSort fun v w => (direction.orient (compareAt positions v w)).isLE

namespace SelectItem

/--
The output columns of an entry: its title if it has one, the name of a column, or else the text
of the expression.
-/
def names (schema : Schema) : SelectItem → List String
  | all => schema.columnNames
  | expr _ (some title) => [title]
  | expr (.column _ name) none => [name]
  | expr e none => [e.render]

def values (t : Table) (row : Row) : SelectItem → Except Error (List Value)
  | all => .ok row
  | expr e _ => do return [← e.evalRow t row]

end SelectItem

def projectRow (t : Table) (row : Row) : List SelectItem → Except Error Row
  | [] => .ok []
  | item :: items => do
      let first ← item.values t row
      let others ← projectRow t row items
      return first ++ others

def projectRows (t : Table) (items : List SelectItem) : List Row → Except Error (List Row)
  | [] => .ok []
  | row :: rows => do
      let first ← projectRow t row items
      let others ← projectRows t items rows
      return first :: others

/-! ## Plans -/

def Plan.run (t : Table) : Plan → Except Error QueryResult
  | scan _ filter => do
      return ⟨t.schema.columnNames, ← t.scan filter, 0⟩
  | sort input columns direction => do
      let result ← input.run t
      let positions ← columns.mapM t.schema.index
      return { result with rows := sortRows positions direction result.rows }
  | limit input count => do
      let result ← input.run t
      return { result with rows := result.rows.take count.toNat }
  | project input items => do
      let result ← input.run t
      return ⟨items.flatMap (·.names t.schema), ← projectRows t items result.rows, 0⟩

end Tabular
