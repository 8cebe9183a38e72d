import Tabular.Expr.Basic
import Tabular.Schema

/-!
# Statements
-/

namespace Tabular

inductive SelectItem where
  | all
  /-- An expression, perhaps with a name of its own for the output column. -/
  | expr (e : Expr) (title : Option String)
  deriving DecidableEq

inductive Direction where
  | ascending
  | descending
  deriving DecidableEq

def Direction.word : Direction → String
  | ascending => "ASC"
  | descending => "DESC"

structure Select where
  items : List SelectItem
  source : String
  filter : Option Expr
  orderBy : List String
  direction : Direction
  limit : Option UInt64
  deriving DecidableEq

structure Insert where
  table : String
  /-- The columns that the values name; without them, every column in schema order. -/
  columns : Option (List String)
  tuples : List (List Expr)
  deriving DecidableEq

inductive Statement where
  | select (query : Select)
  | insert (insertion : Insert)
  | createTable (name : String) (columns : List Column)
  | dropTable (name : String)
  deriving DecidableEq

def Statement.label : Statement → String
  | select _ => "SELECT"
  | insert _ => "INSERT"
  | createTable _ _ => "CREATE TABLE"
  | dropTable _ => "DROP TABLE"

end Tabular
