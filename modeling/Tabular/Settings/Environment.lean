import Tabular.Settings.Basic

/-!
# Settings from the environment

Variables name a profile, and values for its fields.  Truth values are the words `true` and `false`;
the level and the format of the log are taken in lower case.
-/

namespace Tabular

/-- The variables that are set, with their texts. -/
abbrev Environment := List (String × String)

namespace Environment

def boolean? (env : Environment) (name : String) : Except Error (Option Bool) :=
  match env.lookup name with
  | none => .ok none
  | some "true" => .ok (some true)
  | some "false" => .ok (some false)
  | some text => .error (.invalidSetting ("Invalid " ++ name ++ ": " ++ text))

def lowerCase? (env : Environment) (name : String) : Option String :=
  (env.lookup name).map Text.lowerCase

def profile (env : Environment) : Except Error Profile :=
  Profile.ofString ((env.lookup "ROWSQL_PROFILE").getD "strict")

/-- The settings with each field taken from its variable, where that is set. -/
def override (env : Environment) (s : Settings) : Except Error Settings := do
  let reject ← env.boolean? "ROWSQL_REJECT_INVALID_TOKENS"
  let missing ← env.boolean? "ROWSQL_ERROR_ON_MISSING_DROP"
  let backend ← env.boolean? "ROWSQL_USE_BACKEND"
  let statements ← env.boolean? "ROWSQL_LOG_STATEMENTS"
  return {
    profile := s.profile
    lexer := { rejectInvalidTokens := reject.getD s.lexer.rejectInvalidTokens }
    execution := {
      errorOnMissingDrop := missing.getD s.execution.errorOnMissingDrop
      useBackend := backend.getD s.execution.useBackend }
    logging := {
      level := (env.lowerCase? "ROWSQL_LOG_LEVEL").getD s.logging.level
      format := (env.lowerCase? "ROWSQL_LOG_FORMAT").getD s.logging.format
      logStatements := statements.getD s.logging.logStatements } }

end Environment

def Settings.ofEnvironment (env : Environment) : Except Error Settings := do
  let s ← env.override (ofProfile (← env.profile))
  s.validate
  return s

end Tabular
