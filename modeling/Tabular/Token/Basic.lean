import Tabular.Binary64.Text
import Tabular.Position

/-!
# Tokens

A token is a kind, the exact source text it was read from, and the place of that text.  Kinds and
tokens have a description for messages.
-/

namespace Tabular

inductive Keyword where
  | select | «from» | «where» | insert | into | values | create | table | drop | update | set
  | delete | and | or | not | true | false | null | as | order | «by» | asc | desc | limit
  | integer | real | text | boolean
  deriving DecidableEq

namespace Keyword

def all : List Keyword :=
  [select, «from», «where», insert, into, values, create, table, drop, update, set, delete, and,
   or, not, true, false, null, as, order, «by», asc, desc, limit, integer, real, text, boolean]

/-- The word in capital letters. -/
def spelling : Keyword → String
  | select => "SELECT"
  | «from» => "FROM"
  | «where» => "WHERE"
  | insert => "INSERT"
  | into => "INTO"
  | values => "VALUES"
  | create => "CREATE"
  | table => "TABLE"
  | drop => "DROP"
  | update => "UPDATE"
  | set => "SET"
  | delete => "DELETE"
  | and => "AND"
  | or => "OR"
  | not => "NOT"
  | true => "TRUE"
  | false => "FALSE"
  | null => "NULL"
  | as => "AS"
  | order => "ORDER"
  | «by» => "BY"
  | asc => "ASC"
  | desc => "DESC"
  | limit => "LIMIT"
  | integer => "INTEGER"
  | real => "REAL"
  | text => "TEXT"
  | boolean => "BOOLEAN"

/-- The keyword with this spelling, in letters of either case. -/
def ofWord? (word : List Char) : Option Keyword :=
  all.find? fun k => k.spelling.toList == word.map Char.toUpper

end Keyword

inductive Symbol where
  | plus | minus | star | slash
  | equal | notEqual | less | lessEqual | greater | greaterEqual
  | leftParen | rightParen | comma | semicolon | dot
  deriving DecidableEq

def Symbol.spelling : Symbol → String
  | plus => "+"
  | minus => "-"
  | star => "*"
  | slash => "/"
  | equal => "="
  | notEqual => "<>"
  | less => "<"
  | lessEqual => "<="
  | greater => ">"
  | greaterEqual => ">="
  | leftParen => "("
  | rightParen => ")"
  | comma => ","
  | semicolon => ";"
  | dot => "."

inductive TokenKind where
  | keyword (k : Keyword)
  | symbol (s : Symbol)
  | integer (n : Int64)
  | real (x : Binary64)
  | text (s : String)
  | identifier (name : String)
  /-- A character that begins no other token. -/
  | invalid (c : Char)
  | endMarker
  deriving DecidableEq

def TokenKind.describe : TokenKind → String
  | keyword k => k.spelling
  | symbol s => "'" ++ s.spelling ++ "'"
  | integer n => "integer " ++ toString n.toInt
  | real x => "real " ++ Binary64.Layout.compact.text x
  | text s => "string '" ++ s ++ "'"
  | identifier name => "identifier " ++ name
  | invalid c => "invalid character '" ++ String.singleton c ++ "'"
  | endMarker => "end of input"

structure Token where
  kind : TokenKind
  /-- The source text of the token, quotes included. -/
  text : String
  position : Position
  deriving DecidableEq

namespace Token

def isEnd (t : Token) : Bool :=
  t.kind = .endMarker

def describe (t : Token) : String :=
  if t.isEnd then TokenKind.endMarker.describe else "`" ++ t.text ++ "`"

end Token

end Tabular
