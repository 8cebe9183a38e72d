import Tabular.Expr.Eval

/-!
# Recursion on expressions

Evaluation, the depth and the text of an expression are computed from their values on the operands.
A limit on how many calls may stand one inside the other lets such a function through exactly on the
expressions that are no deeper than the limit.
-/

namespace Tabular.Expr

/-- The cases of a function by recursion on expressions. -/
structure Recursion (β : Type) where
  literal : Value → β
  column : Option String → String → β
  /-- From the operands and the values on them. -/
  binary : Expr → BinaryOp → Expr → β → β → β
  unary : UnaryOp → Expr → β → β

namespace Recursion

variable {β : Type}

def run (r : Recursion β) : Expr → β
  | .literal v => r.literal v
  | .column qualifier name => r.column qualifier name
  | .binary left op right => r.binary left op right (r.run left) (r.run right)
  | .unary op operand => r.unary op operand (r.run operand)

/-- The function, given up where more than `limit` calls would stand one inside the other. -/
def within (r : Recursion β) (limit : Nat) (e : Expr) : Option β :=
  match limit, e with
  | 0, _ => none
  | _ + 1, .literal v => some (r.literal v)
  | _ + 1, .column qualifier name => some (r.column qualifier name)
  | limit + 1, .binary left op right => do
      return r.binary left op right (← r.within limit left) (← r.within limit right)
  | limit + 1, .unary op operand => do
      return r.unary op operand (← r.within limit operand)

variable {r : Recursion β} {limit : Nat} {e : Expr} {b : β}

def evaluation (reading : ColumnReading) : Recursion (Except Error Value) where
  literal v := .ok v
  column qualifier name := reading qualifier name
  binary _ op _ left right := do
    let v ← left
    let w ← right
    op.apply v w
  unary op _ operand := do
    let v ← operand
    op.apply v

end Recursion

end Tabular.Expr
