import Tabular.Proofs.Grammar.Expression
import Tabular.Statement.Basic

/-!
# The grammar of statements

Which kinds of tokens a statement is written with, clause by clause.  Every clause is a relation
between token kinds and the part of the statement that they give.
-/

namespace Tabular.Grammar

variable {α : Type}

/-! ## Lists and clauses -/

/-- Items with commas between them, at least one. -/
inductive CommaList (item : List TokenKind → α → Prop) :
    List TokenKind → List α → Prop where
  | last {kinds : List TokenKind} {a : α} : item kinds a → CommaList item kinds [a]
  | more {kinds kinds' : List TokenKind} {a : α} {as : List α} :
      item kinds a → CommaList item kinds' as →
      CommaList item (kinds ++ .symbol .comma :: kinds') (a :: as)

/-- Items one behind the other, perhaps none. -/
inductive Sequence (item : List TokenKind → α → Prop) :
    List TokenKind → List α → Prop where
  | none : Sequence item [] []
  | more {kinds kinds' : List TokenKind} {a : α} {as : List α} :
      item kinds a → Sequence item kinds' as → Sequence item (kinds ++ kinds') (a :: as)

def IsName (kinds : List TokenKind) (name : String) : Prop :=
  kinds = [.identifier name]

def Closed (inner : List TokenKind → α → Prop) (kinds : List TokenKind) (a : α) : Prop :=
  ∃ front, kinds = front ++ [.symbol .rightParen] ∧ inner front a

def InParentheses (inner : List TokenKind → α → Prop) (kinds : List TokenKind) (a : α) : Prop :=
  ∃ back, kinds = .symbol .leftParen :: back ∧ Closed inner back a

/-- A clause behind the token that opens it, or nothing. -/
inductive Optional (k : TokenKind) (clause : List TokenKind → α → Prop) :
    List TokenKind → Option α → Prop where
  | none : Optional k clause [] none
  | some {kinds : List TokenKind} {a : α} :
      clause kinds a → Optional k clause (k :: kinds) (some a)

/-! ## SELECT -/

inductive IsSelectItem : List TokenKind → SelectItem → Prop where
  | all : IsSelectItem [.symbol .star] .all
  | expr {kinds kinds' : List TokenKind} {e : Expr} {title : Option String} :
      IsExpr kinds e → Optional (.keyword .as) IsName kinds' title →
      IsSelectItem (kinds ++ kinds') (.expr e title)

/-- Without a word for the direction the order is ascending. -/
inductive IsDirection : List TokenKind → Direction → Prop where
  | none : IsDirection [] .ascending
  | ascending : IsDirection [.keyword .asc] .ascending
  | descending : IsDirection [.keyword .desc] .descending

inductive IsOrder : List TokenKind → List String × Direction → Prop where
  | none : IsOrder [] ([], .ascending)
  | names {kinds kinds' : List TokenKind} {names : List String} {direction : Direction} :
      CommaList IsName kinds names → IsDirection kinds' direction →
      IsOrder (.keyword .order :: .keyword .«by» :: kinds ++ kinds') (names, direction)

/-- The bits of the literal are those of the number. -/
def IsCount (kinds : List TokenKind) (count : UInt64) : Prop :=
  ∃ n : Int64, kinds = [.integer n] ∧ count = .ofBitVec n.toBitVec

inductive IsSelect : List TokenKind → Select → Prop where
  | mk {listed filtered ordered limited : List TokenKind} {items : List SelectItem}
      {source : String} {filter : Option Expr} {orderBy : List String} {direction : Direction}
      {limit : Option UInt64} :
      CommaList IsSelectItem listed items →
      Optional (.keyword .«where») IsExpr filtered filter →
      IsOrder ordered (orderBy, direction) →
      Optional (.keyword .limit) IsCount limited limit →
      IsSelect
        (.keyword .select :: listed ++
          .keyword .«from» :: .identifier source :: (filtered ++ (ordered ++ limited)))
        { items, source, filter, orderBy, direction, limit }

/-! ## INSERT -/

inductive IsInsert : List TokenKind → Insert → Prop where
  | mk {named given : List TokenKind} {table : String} {columns : Option (List String)}
      {tuples : List (List Expr)} :
      Optional (.symbol .leftParen) (Closed (CommaList IsName)) named columns →
      CommaList (InParentheses (CommaList IsExpr)) given tuples →
      IsInsert
        (.keyword .insert :: .keyword .into :: .identifier table :: named ++
          .keyword .values :: given)
        { table, columns, tuples }

/-! ## CREATE TABLE -/

inductive TypeSign : TokenKind → DataType → Prop where
  | integer : TypeSign (.keyword .integer) .integer
  | real : TypeSign (.keyword .real) .real
  | text : TypeSign (.keyword .text) .text
  | boolean : TypeSign (.keyword .boolean) .boolean

inductive Constraint where
  | notNull
  | primaryKey
  /-- A word that says nothing. -/
  | other (word : String)
  deriving DecidableEq

/-- The name is the word, in letters of either case. -/
def SameWord (word name : String) : Prop :=
  name.toList.map Char.toUpper = word.toList

inductive IsConstraint : List TokenKind → Constraint → Prop where
  | notNull : IsConstraint [.keyword .not, .keyword .null] .notNull
  | primaryKey {primary key : String} :
      SameWord "PRIMARY" primary → SameWord "KEY" key →
      IsConstraint [.identifier primary, .identifier key] .primaryKey
  | other {word : String} :
      ¬ SameWord "PRIMARY" word → IsConstraint [.identifier word] (.other word)

def constrained (name : String) (dataType : DataType) (constraints : List Constraint) : Column :=
  { name, dataType
    nullable := .notNull ∉ constraints
    primaryKey := .primaryKey ∈ constraints }

inductive IsColumn : List TokenKind → Column → Prop where
  | mk {name : String} {k : TokenKind} {dataType : DataType} {kinds : List TokenKind}
      {constraints : List Constraint} :
      TypeSign k dataType → Sequence IsConstraint kinds constraints →
      IsColumn (.identifier name :: k :: kinds) (constrained name dataType constraints)

/-! ## Statements -/

inductive IsStatement : List TokenKind → Statement → Prop where
  | select {kinds : List TokenKind} {query : Select} :
      IsSelect kinds query → IsStatement kinds (.select query)
  | insert {kinds : List TokenKind} {insertion : Insert} :
      IsInsert kinds insertion → IsStatement kinds (.insert insertion)
  | createTable {kinds : List TokenKind} {name : String} {columns : List Column} :
      InParentheses (CommaList IsColumn) kinds columns →
      IsStatement (.keyword .create :: .keyword .table :: .identifier name :: kinds)
        (.createTable name columns)
  | dropTable (name : String) :
      IsStatement [.keyword .drop, .keyword .table, .identifier name] (.dropTable name)

inductive IsSentence : List TokenKind → Statement → Prop where
  | unterminated {kinds : List TokenKind} {statement : Statement} :
      IsStatement kinds statement → IsSentence kinds statement
  | terminated {kinds : List TokenKind} {statement : Statement} :
      IsStatement kinds statement → IsSentence (kinds ++ [.symbol .semicolon]) statement

end Tabular.Grammar
