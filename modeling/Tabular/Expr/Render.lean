import Tabular.Expr.Basic
import Tabular.Value.Text

/-!
# Expressions as SQL text

Binary operations inside other operations stand in parentheses.  So does the operand of a minus
that would begin with a minus itself, because two of them begin a comment.
-/

namespace Tabular.Expr

/-- A text between quotes, with a backslash before each backslash and each quote in it. -/
def quote (s : String) : String :=
  String.ofList ('\'' :: (s.toList.flatMap escape ++ ['\'']))
where
  escape (c : Char) : List Char :=
    if c = '\\' ∨ c = '\'' then ['\\', c] else [c]

def literalText : Value → String
  | .text s => quote s
  | v => v.display

/-- Would the text of the expression, as an operand, begin with a minus? -/
def beginsWithMinus : Expr → Bool
  | unary op _ => op = .minus
  | literal (.integer n) => n.toInt < 0
  | literal (.real x) => Binary64.isNegative x
  | _ => false

def isBinary : Expr → Bool
  | binary .. => true
  | _ => false

def group (grouped : Bool) (s : String) : String :=
  if grouped then "(" ++ s ++ ")" else s

def render : Expr → String
  | literal v => literalText v
  | column (some table) name => table ++ "." ++ name
  | column none name => name
  | binary left op right =>
      group left.isBinary left.render ++ " " ++ op.symbol ++ " "
        ++ group right.isBinary right.render
  | unary .minus e => "-" ++ group (e.isBinary || e.beginsWithMinus) e.render
  | unary .not e => "NOT " ++ group e.isBinary e.render

end Tabular.Expr
