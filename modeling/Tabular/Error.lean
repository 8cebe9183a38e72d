import Tabular.Position
import Tabular.Value.Basic

/-!
# Errors

Every way in which a statement, a row or a setting is refused, its message, and the family that a
caller may branch on without reading the message.
-/

namespace Tabular

inductive ErrorKind where
  | lexical
  | grammar
  | schema
  | validation
  | unsupportedExpression
  | evaluation
  | settings
  | backend
  deriving DecidableEq

inductive Error where
  /-- The text has no token at the position. -/
  | lexical (fault : String) (position : Position)
  /-- The token of number `tokenIndex` does not continue a statement. -/
  | unexpectedToken (expected found : String) (tokenIndex : Nat) (position : Position)
  | tableNotFound (table : String)
  | tableAlreadyExists (table : String)
  | columnNotFound (column : String)
  | duplicateColumn (column : String)
  | rowWidthMismatch (table : String) (expected found : Nat)
  | nullConstraintViolation (column : String)
  | typeMismatch (column : String) (expected found : DataType)
  | unsupportedExpression (reason : String)
  | invalidOperation (reason : String)
  | divisionByZero
  /-- The exact result of the operation has no 64-bit integer. -/
  | integerOverflow (operation : String)
  | invalidSetting (reason : String)
  | backend (reason : String)
  deriving DecidableEq

namespace Error

def kind : Error → ErrorKind
  | lexical .. => .lexical
  | unexpectedToken .. => .grammar
  | tableNotFound _ | tableAlreadyExists _ | columnNotFound _ | duplicateColumn _ => .schema
  | rowWidthMismatch .. | nullConstraintViolation _ | typeMismatch .. => .validation
  | unsupportedExpression _ => .unsupportedExpression
  | invalidOperation _ | divisionByZero | integerOverflow _ => .evaluation
  | invalidSetting _ => .settings
  | backend _ => .backend

def message : Error → String
  | lexical fault position => "Lexical error at " ++ position.text ++ ": " ++ fault
  | unexpectedToken expected found tokenIndex position =>
      "Syntax error at token " ++ toString tokenIndex ++ " (" ++ position.text ++ "): expected "
        ++ expected ++ ", found " ++ found
  | tableNotFound table => "Table not found: " ++ table
  | tableAlreadyExists table => "Table already exists: " ++ table
  | columnNotFound column => "Column not found: " ++ column
  | duplicateColumn column => "Duplicate column: " ++ column
  | rowWidthMismatch table expected found =>
      "Row width mismatch for table " ++ table ++ ": expected " ++ toString expected
        ++ " values, found " ++ toString found
  | nullConstraintViolation column => "NULL value in non-nullable column: " ++ column
  | typeMismatch column expected found =>
      "Type mismatch in column " ++ column ++ ": expected " ++ expected.name ++ ", found "
        ++ found.name
  | unsupportedExpression reason => "Unsupported expression: " ++ reason
  | invalidOperation reason => "Invalid operation: " ++ reason
  | divisionByZero => "Division by zero"
  | integerOverflow operation => "Integer overflow: " ++ operation
  | invalidSetting reason => "Configuration error: " ++ reason
  | backend reason => "Execution backend error: " ++ reason

end Error

end Tabular
