import Tabular.Binary64.Decimal
import Tabular.Error
import Tabular.Value.Order

/-!
# Operators on values

Arithmetic and comparison of a `NULL` give `NULL`.  An integer beside a real counts as a real.
Integer results are exact or refused.  The connectives follow three-valued logic and look at both
operands before they decide.
-/

namespace Tabular

inductive Arithmetic where
  | add
  | subtract
  | multiply
  | divide
  deriving DecidableEq

inductive Comparison where
  | equal
  | notEqual
  | less
  | greater
  | lessEqual
  | greaterEqual
  deriving DecidableEq

inductive Connective where
  | and
  | or
  deriving DecidableEq

inductive BinaryOp where
  | arithmetic (op : Arithmetic)
  | comparison (op : Comparison)
  | connective (op : Connective)
  deriving DecidableEq

inductive UnaryOp where
  | not
  | minus
  deriving DecidableEq

def Arithmetic.symbol : Arithmetic → String
  | add => "+"
  | subtract => "-"
  | multiply => "*"
  | divide => "/"

def Comparison.symbol : Comparison → String
  | equal => "="
  | notEqual => "<>"
  | less => "<"
  | greater => ">"
  | lessEqual => "<="
  | greaterEqual => ">="

def Connective.symbol : Connective → String
  | and => "AND"
  | or => "OR"

def BinaryOp.symbol : BinaryOp → String
  | arithmetic op => op.symbol
  | comparison op => op.symbol
  | connective op => op.symbol

/-- What an operator without a meaning for its operands answers. -/
def BinaryOp.undefinedFor (op : BinaryOp) (v w : Value) : Error :=
  .invalidOperation (op.symbol ++ " is not defined for " ++ v.typeName ++ " and " ++ w.typeName)

/-! ## Arithmetic -/

/-- The 64-bit integer of a number, if it has one. -/
def int64? (n : Int) : Option Int64 :=
  if -2 ^ 63 ≤ n ∧ n < 2 ^ 63 then some (Int64.ofInt n) else none

theorem toInt_of_int64? {n : Int} {m : Int64} (h : int64? n = some m) : m.toInt = n := by
  unfold int64? at h
  split at h
  · cases h
    exact Int64.toInt_ofInt_of_le (by omega) (by omega)
  · contradiction

def promote (n : Int64) : Binary64 :=
  Binary64.ofInt n.toInt

/-- The result over all integers; division drops the fraction. -/
def Arithmetic.exact : Arithmetic → Int → Int → Int
  | add, m, n => m + n
  | subtract, m, n => m - n
  | multiply, m, n => m * n
  | divide, m, n => m.tdiv n

def Arithmetic.onIntegers (op : Arithmetic) (m n : Int64) : Except Error Value :=
  if op = divide ∧ n = 0 then .error .divisionByZero
  else
    match int64? (op.exact m.toInt n.toInt) with
    | some k => .ok (.integer k)
    | none =>
        .error (.integerOverflow
          (toString m.toInt ++ " " ++ op.symbol ++ " " ++ toString n.toInt))

def Arithmetic.ofMachine : Arithmetic → Float → Float → Float
  | add, x, y => x + y
  | subtract, x, y => x - y
  | multiply, x, y => x * y
  | divide, x, y => x / y

def Arithmetic.rounded (op : Arithmetic) : Binary64 → Binary64 → Binary64 :=
  Binary64.onMachine op.ofMachine

def Arithmetic.onReals (op : Arithmetic) (x y : Binary64) : Except Error Value :=
  if op = divide ∧ Binary64.isZero y then .error .divisionByZero
  else .ok (.real (op.rounded x y))

def Arithmetic.apply (op : Arithmetic) : Value → Value → Except Error Value
  | .null, _ | _, .null => .ok .null
  | .integer m, .integer n => op.onIntegers m n
  | .integer m, .real y => op.onReals (promote m) y
  | .real x, .integer n => op.onReals x (promote n)
  | .real x, .real y => op.onReals x y
  | v, w => .error ((BinaryOp.arithmetic op).undefinedFor v w)

/-! ## Comparison -/

/--
The order of two values as operands of a comparison: numbers by their value, other pairs by the
order of values, and none beside `NULL`.
-/
def Value.compare? : Value → Value → Option Ordering
  | .null, _ | _, .null => none
  | .integer m, .real y => Binary64.compare? (promote m) y
  | .real x, .integer n => Binary64.compare? x (promote n)
  | .real x, .real y => Binary64.compare? x y
  | v, w => some (v.order w)

def Comparison.holds : Comparison → Ordering → Bool
  | equal, o => o.isEq
  | notEqual, o => o.isNe
  | less, o => o.isLT
  | greater, o => o.isGT
  | lessEqual, o => o.isLE
  | greaterEqual, o => o.isGE

def Comparison.apply (op : Comparison) (v w : Value) : Value :=
  match v.compare? w with
  | some o => .boolean (op.holds o)
  | none => .null

/-! ## Logic -/

/-- The truth value of an operand; `none` inside stands for unknown. -/
def Value.truth? : Value → Option (Option Bool)
  | .null => some none
  | .boolean b => some (some b)
  | _ => none

def Value.ofTruth : Option Bool → Value
  | some b => .boolean b
  | none => .null

def Connective.combine : Connective → Option Bool → Option Bool → Option Bool
  | and, some false, _ | and, _, some false => some false
  | and, some true, some true => some true
  | or, some true, _ | or, _, some true => some true
  | or, some false, some false => some false
  | _, _, _ => none

def Connective.apply (op : Connective) (v w : Value) : Except Error Value :=
  match v.truth?, w.truth? with
  | some p, some q => .ok (.ofTruth (op.combine p q))
  | none, _ => .error ((BinaryOp.connective op).undefinedFor v w)
  | some _, none => .error ((BinaryOp.connective op).undefinedFor w v)

/-! ## Both kinds of operators -/

def BinaryOp.apply : BinaryOp → Value → Value → Except Error Value
  | arithmetic op, v, w => op.apply v w
  | comparison op, v, w => .ok (op.apply v w)
  | connective op, v, w => op.apply v w

def UnaryOp.name : UnaryOp → String
  | not => "Not"
  | minus => "Minus"

def UnaryOp.apply : UnaryOp → Value → Except Error Value
  | _, .null => .ok .null
  | not, .boolean b => .ok (.boolean !b)
  | minus, .integer n =>
      match int64? (-n.toInt) with
      | some m => .ok (.integer m)
      | none => .error (.integerOverflow ("-(" ++ toString n.toInt ++ ")"))
  | minus, .real x => .ok (.real (Binary64.negate x))
  | op, v => .error (.invalidOperation
      ("unary " ++ op.name ++ " is not defined for " ++ v.typeName))

end Tabular
