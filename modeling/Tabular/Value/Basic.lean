import Tabular.Binary64.Bits

/-!
# Values and their types

A cell of a table holds `NULL` or a value of one of four types.
-/

namespace Tabular

inductive DataType where
  | integer
  | real
  | text
  | boolean
  deriving DecidableEq

def DataType.name : DataType → String
  | .integer => "INTEGER"
  | .real => "REAL"
  | .text => "TEXT"
  | .boolean => "BOOLEAN"

/--
A single value.  Two values are equal when they have one variant and one payload; reals are
compared bit for bit, so `-0.0` differs from `0.0` and each NaN equals itself.
-/
inductive Value where
  | null
  | integer (n : Int64)
  | real (x : Binary64)
  | text (s : String)
  | boolean (b : Bool)
  deriving DecidableEq

abbrev Row := List Value

namespace Value

def isNull : Value → Bool
  | null => true
  | _ => false

/-- The type of a value; `NULL` has none. -/
def dataType? : Value → Option DataType
  | null => none
  | integer _ => some .integer
  | real _ => some .real
  | text _ => some .text
  | boolean _ => some .boolean

def integer? : Value → Option Int64
  | integer n => some n
  | _ => none

def real? : Value → Option Binary64
  | real x => some x
  | _ => none

def text? : Value → Option String
  | text s => some s
  | _ => none

def boolean? : Value → Option Bool
  | boolean b => some b
  | _ => none

/-- The SQL word for the type of a value, `NULL` included. -/
def typeName (v : Value) : String :=
  match v.dataType? with
  | some t => t.name
  | none => "NULL"

theorem dataType?_eq_none_iff {v : Value} : v.dataType? = none ↔ v = null := by
  cases v <;> simp [dataType?]

end Value

end Tabular
