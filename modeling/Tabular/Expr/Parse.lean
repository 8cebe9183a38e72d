import Tabular.Expr.Basic
import Tabular.Token.Lexer
import Tabular.Token.Stream

/-!
# Reading expressions

Binary operators stand on six levels and group to the left; unary operators and parentheses bind
closest.  The nesting of parentheses and unary operators is bounded, and so is the depth of the
tree, chains of binary operators included.
-/

namespace Tabular.Expr

open Parse Nesting

/-! ## The levels of binary operators -/

def disjunction? : TokenKind → Option BinaryOp
  | .keyword .or => some (.connective .or)
  | _ => none

def conjunction? : TokenKind → Option BinaryOp
  | .keyword .and => some (.connective .and)
  | _ => none

def equality? : TokenKind → Option BinaryOp
  | .symbol .equal => some (.comparison .equal)
  | .symbol .notEqual => some (.comparison .notEqual)
  | _ => none

def inequality? : TokenKind → Option BinaryOp
  | .symbol .less => some (.comparison .less)
  | .symbol .greater => some (.comparison .greater)
  | .symbol .lessEqual => some (.comparison .lessEqual)
  | .symbol .greaterEqual => some (.comparison .greaterEqual)
  | _ => none

def sum? : TokenKind → Option BinaryOp
  | .symbol .plus => some (.arithmetic .add)
  | .symbol .minus => some (.arithmetic .subtract)
  | _ => none

def product? : TokenKind → Option BinaryOp
  | .symbol .star => some (.arithmetic .multiply)
  | .symbol .slash => some (.arithmetic .divide)
  | _ => none

def levels : List (TokenKind → Option BinaryOp) :=
  [disjunction?, conjunction?, equality?, inequality?, sum?, product?]

/-! ## Readers -/

/-- Fails because the next token would be nested too deep. -/
def tooDeep : Parse α :=
  refuse ("nesting depth <= " ++ toString maxDepth)

def bounded (e : Expr) : Parse Expr :=
  if e.depth ≤ maxDepth then return e else tooDeep

section

variable {m : Type → Type} [Monad m] [MonadLiftT Parse m] [Nesting m]

/-- Reads an operator of a level and the operand behind it, if there is one. -/
def extend (op? : TokenKind → Option BinaryOp) (operand : m Expr) (left : Expr) :
    m (Option Expr) := do
  match op? (← kind) with
  | some op =>
      advance
      let right ← operand
      return some (← bounded (binary left op right))
  | none => return none

/-- Reads operands with operators of one level between them, and groups them to the left. -/
def leftAssoc (op? : TokenKind → Option BinaryOp) (operand : m Expr) : m Expr := do
  iterate (extend op? operand) (← operand)

def parseOver (operand : m Expr) : m Expr :=
  levels.foldr leftAssoc operand

def parseColumn (name : String) : Parse Expr := do
  if ← accept (.symbol .dot) then
    return column (some name) (← identifier "column name after '.'")
  else return column none name

def literal? : TokenKind → Option Value
  | .keyword .true => some (.boolean true)
  | .keyword .false => some (.boolean false)
  | .keyword .null => some .null
  | .integer n => some (.integer n)
  | .real x => some (.real x)
  | .text s => some (.text s)
  | _ => none

def unaryOp? : TokenKind → Option UnaryOp
  | .keyword .not => some .not
  | .symbol .minus => some .minus
  | _ => none

/--
Reads an operand of binary operators; `deeper` reads those one parenthesis or unary operator
further in.
-/
def parseOperand (deeper : m Expr) : m Expr := do
  let k ← kind
  match unaryOp? k, literal? k, k with
  | some op, _, _ =>
      advance
      bounded (unary op (← nested deeper))
  | _, some v, _ =>
      advance
      return literal v
  | _, _, .identifier name =>
      advance
      parseColumn name
  | _, _, .symbol .leftParen =>
      advance
      closed (nested (parseOver deeper))
  | _, _, _ => refuse "expression"

/-- Reads an operand with at most `nesting` parentheses and unary operators around any part. -/
def parseNested : Nat → m Expr
  | 0 => parseOperand (liftM (tooDeep : Parse Expr))
  | nesting + 1 => parseOperand (parseNested nesting)

def reader : m Expr :=
  parseOver (parseNested maxDepth)

end

abbrev parse : Parse Expr :=
  reader

/-- The expression at the beginning of a text, read strictly. -/
def ofString (source : String) : Except Error Expr := do
  let tokens ← tokenize source .strict
  (parse.answer (.ofTokens tokens)).1

end Tabular.Expr
