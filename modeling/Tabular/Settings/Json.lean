import Tabular.Json
import Tabular.Settings.Basic

/-!
# Settings as JSON

Every field is required, and none is checked beyond its type.
-/

namespace Tabular

/-- The profile that a document names, in lower case. -/
def Profile.ofJson? (j : Json) : Option Profile := do
  match ← j.word? with
  | "strict" => some .strict
  | "permissive" => some .permissive
  | _ => none

def LexerSettings.ofJson? (j : Json) : Option LexerSettings := do
  match ← j.record? ["reject_invalid_tokens"] with
  | [reject] => return ⟨← reject.boolean?⟩
  | _ => none

def ExecutionSettings.ofJson? (j : Json) : Option ExecutionSettings := do
  match ← j.record? ["error_on_missing_drop", "use_backend"] with
  | [missing, backend] => return ⟨← missing.boolean?, ← backend.boolean?⟩
  | _ => none

def LoggingSettings.ofJson? (j : Json) : Option LoggingSettings := do
  match ← j.record? ["level", "format", "log_statements"] with
  | [level, format, statements] =>
      return ⟨← level.text?, ← format.text?, ← statements.boolean?⟩
  | _ => none

def Settings.ofJson? (j : Json) : Option Settings := do
  match ← j.record? ["profile", "lexer", "execution", "logging"] with
  | [profile, lexer, execution, logging] =>
      return {
        profile := ← Profile.ofJson? profile
        lexer := ← LexerSettings.ofJson? lexer
        execution := ← ExecutionSettings.ofJson? execution
        logging := ← LoggingSettings.ofJson? logging }
  | _ => none

end Tabular
