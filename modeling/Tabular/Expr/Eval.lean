import Tabular.Expr.Render
import Tabular.Table

/-!
# Evaluation

An expression is evaluated under a reading of its columns.  Operands come before operators, the left
before the right, and none is skipped.
-/

namespace Tabular

/-- The value of each column reference, by qualifier and name. -/
abbrev ColumnReading := Option String → String → Except Error Value

namespace Expr

def noColumns : ColumnReading := fun qualifier name =>
  .error (.unsupportedExpression
    ("column reference " ++ (column qualifier name).render ++ " outside of a row context"))

def eval (reading : ColumnReading) : Expr → Except Error Value
  | literal v => .ok v
  | column qualifier name => reading qualifier name
  | binary left op right => do
      let v ← left.eval reading
      let w ← right.eval reading
      op.apply v w
  | unary op operand => do
      let v ← operand.eval reading
      op.apply v

def evalConstant (e : Expr) : Except Error Value :=
  e.eval noColumns

def evalRow (t : Table) (row : Row) (e : Expr) : Except Error Value :=
  e.eval (t.value row)

end Expr

end Tabular
