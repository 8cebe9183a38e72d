import Tabular.Expr.Parse
import Tabular.Statement.Basic
import Tabular.Token.Lexer

/-!
# Reading statements

A statement is one of four, and may end in a semicolon; nothing may follow it.
-/

namespace Tabular.Statement

open Parse

variable {m : Type → Type} [Monad m] [MonadLiftT Parse m] [Nesting m]

/-! ## SELECT -/

def parseTitle : Parse (Option String) :=
  optional (.keyword .as) (identifier "alias after AS")

/-- Reads the word for a direction; without one the order is ascending. -/
def parseDirection : Parse Direction := do
  if ← accept (.keyword .desc) then return .descending
  else
    let _ ← accept (.keyword .asc)
    return .ascending

/-- Reads the columns to sort by and the direction; without them nothing is sorted. -/
def parseOrder : Parse (List String × Direction) := do
  if ← accept (.keyword .order) then
    expect (.keyword .«by»)
    return (← separated (identifier "column name in ORDER BY"), ← parseDirection)
  else return ([], .ascending)

/-- Reads a number of rows; the 64 bits of the literal count as unsigned. -/
def parseCount : Parse UInt64 := do
  match ← kind with
  | .integer n =>
      advance
      return n.toUInt64
  | _ => refuse "integer after LIMIT"

def parseLimit : Parse (Option UInt64) :=
  optional (.keyword .limit) parseCount

def parseSelectItem : m SelectItem := do
  if ← accept (.symbol .star) then return .all
  else return .expr (← Expr.reader) (← parseTitle)

def parseFilter : m (Option Expr) :=
  optional (.keyword .«where») Expr.reader

def parseSelect : m Select := do
  expect (.keyword .select)
  let items ← separated parseSelectItem
  expect (.keyword .«from»)
  let source ← identifier "table name"
  let filter ← parseFilter
  let (orderBy, direction) ← parseOrder
  let limit ← parseLimit
  return { items, source, filter, orderBy, direction, limit }

/-! ## INSERT -/

/-- Reads the names of the columns that get values, if they are given. -/
def parseColumnList : Parse (Option (List String)) :=
  optional (.symbol .leftParen) (closed (separated (identifier "column name")))

def parseTuple : m (List Expr) :=
  parenthesized (separated Expr.reader)

def parseInsert : m Insert := do
  expect (.keyword .insert)
  expect (.keyword .into)
  let table ← identifier "table name"
  let columns ← parseColumnList
  expect (.keyword .values)
  let tuples ← separated parseTuple
  return { table, columns, tuples }

/-! ## CREATE TABLE and DROP TABLE -/

def dataType? : TokenKind → Option DataType
  | .keyword .integer => some .integer
  | .keyword .real => some .real
  | .keyword .text => some .text
  | .keyword .boolean => some .boolean
  | _ => none

def parseDataType : Parse DataType := do
  match dataType? (← kind) with
  | some t =>
      advance
      return t
  | none => refuse "data type (INTEGER, REAL, TEXT or BOOLEAN)"

/-- Is the name this word, given in capital letters? -/
def isWord (word name : String) : Bool :=
  name.toList.map Char.toUpper == word.toList

/--
Reads one constraint of a column: `NOT NULL`, `PRIMARY KEY`, or another word, which says
nothing.
-/
def parseConstraint (c : Column) : Parse (Option Column) := do
  match ← kind with
  | .keyword .not =>
      advance
      expect (.keyword .null)
      return some { c with nullable := false }
  | .identifier word =>
      advance
      if isWord "PRIMARY" word then
        match ← kind with
        | .identifier key =>
            if isWord "KEY" key then
              advance
              return some { c with primaryKey := true }
            else refuse "KEY after PRIMARY"
        | _ => refuse "KEY after PRIMARY"
      else return some c
  | _ => return none

def parseColumn : Parse Column := do
  let name ← identifier "column name"
  let dataType ← parseDataType
  iterate parseConstraint (.plain name dataType)

def parseCreateTable : Parse Statement := do
  expect (.keyword .create)
  expect (.keyword .table)
  let name ← identifier "table name"
  return .createTable name (← parenthesized (separated parseColumn))

def parseDropTable : Parse Statement := do
  expect (.keyword .drop)
  expect (.keyword .table)
  return .dropTable (← identifier "table name")

/-! ## Statements -/

def parseUnterminated : m Statement := do
  match ← kind with
  | .keyword .select => select <$> parseSelect
  | .keyword .insert => insert <$> parseInsert
  | .keyword .create => parseCreateTable
  | .keyword .drop => parseDropTable
  | _ => refuse "SELECT, INSERT, CREATE or DROP"

/-- Reads one statement, a semicolon if there is one, and the end. -/
def reader : m Statement := do
  let statement ← parseUnterminated
  let _ ← accept (.symbol .semicolon)
  if (← kind) = .endMarker then return statement else refuse "end of input"

abbrev parse : Parse Statement :=
  reader

def ofTokens (tokens : List Token) : Except Error Statement :=
  (parse.answer (.ofTokens tokens)).1

/-- The statement of a text, read strictly. -/
def ofString (source : String) : Except Error Statement :=
  tokenize source .strict >>= ofTokens

end Tabular.Statement
