import Tabular.Json
import Tabular.Value.Basic

/-!
# Results of statements
-/

namespace Tabular

/-- What a statement gives back: named columns, rows, and how many rows it stored. -/
structure QueryResult where
  columns : List String
  rows : List Row
  affected : UInt64
  deriving DecidableEq

def Value.toJson : Value → Json
  | null => .null
  | integer n => .integer n.toInt
  | real x => .ofReal x
  | text s => .text s
  | boolean b => .boolean b

namespace QueryResult

def empty : QueryResult :=
  ⟨[], [], 0⟩

def stored (count : Nat) : QueryResult :=
  ⟨[], [], UInt64.ofNat count⟩

def toJson (r : QueryResult) : Json :=
  .array (r.rows.map fun row => .ofFields (r.columns.zip (row.map Value.toJson)))

end QueryResult

end Tabular
