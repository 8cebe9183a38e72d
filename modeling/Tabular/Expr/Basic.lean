import Tabular.Value.Operator

/-!
# Expressions

Literals, column references, and operators over them.
-/

namespace Tabular

inductive Expr where
  | literal (v : Value)
  /-- A column, perhaps qualified by the name of its table. -/
  | column (table : Option String) (name : String)
  | binary (left : Expr) (op : BinaryOp) (right : Expr)
  | unary (op : UnaryOp) (operand : Expr)
  deriving DecidableEq

namespace Expr

/-- The height of the tree; a literal or a column counts one. -/
def depth : Expr → Nat
  | literal _ => 1
  | column _ _ => 1
  | binary left _ right => 1 + max left.depth right.depth
  | unary _ operand => 1 + operand.depth

/--
The greatest depth of an expression in a statement, and the greatest number of parentheses and
unary operators around any part of it.
-/
def maxDepth : Nat := 128

end Expr

end Tabular
