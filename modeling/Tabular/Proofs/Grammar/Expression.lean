import Tabular.Expr.Basic
import Tabular.Token.Basic

/-!
# The grammar of expressions

Which kinds of tokens an expression is written with, as a relation that says nothing about reading.
A binary operator stands between an operand of its own level and one that binds tighter, so chains
group to the left.  A derivation counts how deep parentheses and unary operators are nested in it.
-/

namespace Tabular.Grammar

inductive Level where
  | disjunction
  | conjunction
  | equality
  | inequality
  | sum
  | product
  deriving DecidableEq

inductive Category where
  | binary (level : Level)
  | unary
  | primary
  deriving DecidableEq

def Level.tighter : Level → Category
  | disjunction => .binary .conjunction
  | conjunction => .binary .equality
  | equality => .binary .inequality
  | inequality => .binary .sum
  | sum => .binary .product
  | product => .unary

/-! ## Signs -/

inductive BinarySign : Level → TokenKind → BinaryOp → Prop where
  | or : BinarySign .disjunction (.keyword .or) (.connective .or)
  | and : BinarySign .conjunction (.keyword .and) (.connective .and)
  | equal : BinarySign .equality (.symbol .equal) (.comparison .equal)
  | notEqual : BinarySign .equality (.symbol .notEqual) (.comparison .notEqual)
  | less : BinarySign .inequality (.symbol .less) (.comparison .less)
  | greater : BinarySign .inequality (.symbol .greater) (.comparison .greater)
  | lessEqual : BinarySign .inequality (.symbol .lessEqual) (.comparison .lessEqual)
  | greaterEqual : BinarySign .inequality (.symbol .greaterEqual) (.comparison .greaterEqual)
  | plus : BinarySign .sum (.symbol .plus) (.arithmetic .add)
  | minus : BinarySign .sum (.symbol .minus) (.arithmetic .subtract)
  | star : BinarySign .product (.symbol .star) (.arithmetic .multiply)
  | slash : BinarySign .product (.symbol .slash) (.arithmetic .divide)

inductive UnarySign : TokenKind → UnaryOp → Prop where
  | not : UnarySign (.keyword .not) .not
  | minus : UnarySign (.symbol .minus) .minus

inductive LiteralSign : TokenKind → Value → Prop where
  | true : LiteralSign (.keyword .true) (.boolean true)
  | false : LiteralSign (.keyword .false) (.boolean false)
  | null : LiteralSign (.keyword .null) .null
  | integer (n : Int64) : LiteralSign (.integer n) (.integer n)
  | real (x : Binary64) : LiteralSign (.real x) (.real x)
  | text (s : String) : LiteralSign (.text s) (.text s)

/-! ## Derivations -/

/--
Tokens of these kinds are the expression `e`, as an operand of a category.  The number at the end
tells how many parentheses and unary operators stand around the part that is deepest in them.
-/
inductive Derives : Category → List TokenKind → Expr → Nat → Prop where
  | tighter {l : Level} {kinds : List TokenKind} {e : Expr} {nesting : Nat} :
      Derives l.tighter kinds e nesting → Derives (.binary l) kinds e nesting
  | binary {l : Level} {kinds kinds' : List TokenKind} {k : TokenKind} {op : BinaryOp}
      {left right : Expr} {nesting nesting' : Nat} :
      Derives (.binary l) kinds left nesting → BinarySign l k op →
      Derives l.tighter kinds' right nesting' →
      Derives (.binary l) (kinds ++ k :: kinds') (.binary left op right) (max nesting nesting')
  | primary {kinds : List TokenKind} {e : Expr} {nesting : Nat} :
      Derives .primary kinds e nesting → Derives .unary kinds e nesting
  | unary {kinds : List TokenKind} {k : TokenKind} {op : UnaryOp} {e : Expr} {nesting : Nat} :
      UnarySign k op → Derives .unary kinds e nesting →
      Derives .unary (k :: kinds) (.unary op e) (nesting + 1)
  | literal {k : TokenKind} {v : Value} :
      LiteralSign k v → Derives .primary [k] (.literal v) 0
  | column (name : String) : Derives .primary [.identifier name] (.column none name) 0
  | qualified (table name : String) :
      Derives .primary [.identifier table, .symbol .dot, .identifier name]
        (.column (some table) name) 0
  | parentheses {kinds : List TokenKind} {e : Expr} {nesting : Nat} :
      Derives (.binary .disjunction) kinds e nesting →
      Derives .primary (.symbol .leftParen :: kinds ++ [.symbol .rightParen]) e (nesting + 1)

/-- Tokens of these kinds are the expression, within the bounds on nesting and depth. -/
def IsExpr (kinds : List TokenKind) (e : Expr) : Prop :=
  ∃ nesting, Derives (.binary .disjunction) kinds e nesting ∧ nesting ≤ Expr.maxDepth ∧
    e.depth ≤ Expr.maxDepth

theorem Derives.onLevel {kinds : List TokenKind} {e : Expr} {nesting : Nat}
    (h : Derives .unary kinds e nesting) (l : Level) : Derives (.binary l) kinds e nesting := by
  have product : Derives (.binary .product) kinds e nesting := .tighter h
  have sum : Derives (.binary .sum) kinds e nesting := .tighter product
  have inequality : Derives (.binary .inequality) kinds e nesting := .tighter sum
  have equality : Derives (.binary .equality) kinds e nesting := .tighter inequality
  have conjunction : Derives (.binary .conjunction) kinds e nesting := .tighter equality
  have disjunction : Derives (.binary .disjunction) kinds e nesting := .tighter conjunction
  cases l <;> assumption

theorem Derives.headD_ne_star {c : Category} {kinds : List TokenKind} {e : Expr} {nesting : Nat}
    (h : Derives c kinds e nesting) (next : TokenKind) : kinds.headD next ≠ .symbol .star := by
  induction h generalizing next with
  | tighter _ ih | primary _ ih => exact ih next
  | @binary l kinds _ _ _ _ _ _ _ _ _ _ ih =>
      cases kinds with
      | nil => exact (ih _ rfl).elim
      | cons first others => exact ih next
  | unary sign => cases sign <;> simp
  | literal sign => cases sign <;> simp
  | column | qualified | parentheses => simp

theorem IsExpr.headD_ne_star (kinds : List TokenKind) (e : Expr) (next : TokenKind)
    (h : IsExpr kinds e) : kinds.headD next ≠ .symbol .star := by
  rcases h with ⟨nesting, derived, -⟩
  exact derived.headD_ne_star next

end Tabular.Grammar
