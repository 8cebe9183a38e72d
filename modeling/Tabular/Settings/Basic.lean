import Tabular.Error
import Tabular.Text.LowerCase

/-!
# Settings

Settings start from one of two profiles and are changed one at a time.  The level and the format of
the log are free texts; they are checked when all changes have been made.
-/

namespace Tabular

inductive Profile where
  /-- Malformed input and drops of missing tables are errors. -/
  | strict
  /-- Invalid characters are left out, and dropping a missing table succeeds. -/
  | permissive
  deriving DecidableEq

/-- The profile that a text names, in letters of any case. -/
def Profile.ofString (s : String) : Except Error Profile :=
  let word := Text.lowerCase s
  if word = "strict" then .ok .strict
  else if word = "permissive" ∨ word = "lenient" then .ok .permissive
  else .error (.invalidSetting ("Invalid profile: " ++ s))

structure LexerSettings where
  /-- Characters that begin no token and strings without an end are errors. -/
  rejectInvalidTokens : Bool
  deriving DecidableEq

structure ExecutionSettings where
  errorOnMissingDrop : Bool
  /-- A backend is asked before a plan is interpreted. -/
  useBackend : Bool
  deriving DecidableEq

structure LoggingSettings where
  level : String
  format : String
  logStatements : Bool
  deriving DecidableEq

structure Settings where
  profile : Profile
  lexer : LexerSettings
  execution : ExecutionSettings
  logging : LoggingSettings
  deriving DecidableEq

namespace LoggingSettings

def levels : List String :=
  ["trace", "debug", "info", "warn", "error"]

def formats : List String :=
  ["pretty", "json"]

def validate (s : LoggingSettings) : Except Error Unit :=
  if s.level ∉ levels then
    .error (.invalidSetting ("Invalid log level: " ++ s.level ++ ". Must be one of: "
      ++ ", ".intercalate levels))
  else if s.format ∉ formats then
    .error (.invalidSetting ("Invalid log format: " ++ s.format ++ ". Must be one of: "
      ++ ", ".intercalate formats))
  else .ok ()

/-- Checks the format alone, as the log itself does before it begins. -/
def checkFormat (s : LoggingSettings) : Except Error Unit :=
  if s.format ∈ formats then .ok ()
  else .error (.invalidSetting ("Invalid log format: " ++ s.format))

end LoggingSettings

namespace Settings

def strict : Settings :=
  { profile := .strict
    lexer := { rejectInvalidTokens := true }
    execution := { errorOnMissingDrop := true, useBackend := true }
    logging := { level := "info", format := "pretty", logStatements := false } }

def permissive : Settings :=
  { strict with
    profile := .permissive
    lexer := { rejectInvalidTokens := false }
    execution := { strict.execution with errorOnMissingDrop := false } }

def ofProfile : Profile → Settings
  | .strict => strict
  | .permissive => permissive

def validate (s : Settings) : Except Error Unit :=
  s.logging.validate

end Settings

inductive Setting where
  | rejectInvalidTokens (b : Bool)
  | errorOnMissingDrop (b : Bool)
  | useBackend (b : Bool)
  | logLevel (level : String)
  | logFormat (format : String)
  | logStatements (b : Bool)
  deriving DecidableEq

namespace Settings

def set (s : Settings) : Setting → Settings
  | .rejectInvalidTokens b => { s with lexer := { s.lexer with rejectInvalidTokens := b } }
  | .errorOnMissingDrop b => { s with execution := { s.execution with errorOnMissingDrop := b } }
  | .useBackend b => { s with execution := { s.execution with useBackend := b } }
  | .logLevel level => { s with logging := { s.logging with level } }
  | .logFormat format => { s with logging := { s.logging with format } }
  | .logStatements b => { s with logging := { s.logging with logStatements := b } }

/-- The settings of a profile with changes made in turn, if they are valid in the end. -/
def build (profile : Profile) (changes : List Setting) : Except Error Settings := do
  let s := changes.foldl set (ofProfile profile)
  s.validate
  return s

end Settings

end Tabular
