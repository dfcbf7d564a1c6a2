import Lexis.Disk.Error

/-!
# Faults

Everything that can make the program fail, and all the wording of it. A fault has a message for
people and a record form, which shows the family of the fault and its fields.
-/

namespace Lexis

/-- Why the program fails. -/
inductive Fault where
  /-- The settings could not be found, understood or written. -/
  | config (reason : String)
  /-- A source could not be read. -/
  | file (reason : String)
  /-- The request makes no sense. -/
  | validation (reason : String)
  /-- Some sources have lexical errors. -/
  | lexical (files errors : Nat)
  /-- The disk failed. -/
  | disk (e : DiskError)
  /-- A JSON text is malformed. -/
  | json (reason : String)
deriving DecidableEq, Repr

namespace Fault

/-! ### Causes -/

/-- There is no settings file at the path that was asked for. -/
def settingsMissing (path : String) : Fault :=
  .config ("Configuration file not found: " ++ path)

/-- The settings file does not describe settings. -/
def settingsMalformed : Fault :=
  .config "Failed to parse configuration: the file does not describe settings"

/-- The settings hold a number that the format cannot express. -/
def settingsUnwritable : Fault :=
  .config "Failed to serialize configuration: number of jobs out of range"

/-- The settings ask for no worker. -/
def settingsWithoutJobs : Fault :=
  .config "jobs must be at least 1"

/-- The settings name a namespace that is no plain name. -/
def settingsNamespace (name : String) : Fault :=
  .config ("invalid namespace '" ++ name ++ "': must be an identifier")

/-- The request asks for no worker. -/
def withoutJobs : Fault :=
  .validation "jobs must be at least 1"

/-- The request names no source. -/
def withoutFiles : Fault :=
  .validation "No input files specified"

/-- A settings file is there already. -/
def settingsExist (path : String) : Fault :=
  .validation
    ("Configuration file already exists: " ++ path ++ " (use --force to overwrite)")

/-- A source cannot be read. -/
def unreadable (path : String) (e : DiskError) : Fault :=
  .file ("Cannot read " ++ path ++ ": " ++ e.message)

/-! ### Wording -/

/-- The fault as a sentence. -/
def message : Fault → String
  | config reason => "Configuration error: " ++ reason
  | file reason => "File operation failed: " ++ reason
  | validation reason => "Validation error: " ++ reason
  | lexical files errors =>
    toString errors ++ " lexical error(s) in " ++ toString files ++ " file(s)"
  | disk e => "IO error: " ++ e.message
  | json reason => "JSON error: " ++ reason

/-- The fault as a record. -/
def record : Fault → String
  | config reason => "Config(" ++ Text.quote reason ++ ")"
  | file reason => "FileOperation(" ++ Text.quote reason ++ ")"
  | validation reason => "Validation(" ++ Text.quote reason ++ ")"
  | lexical files errors =>
    "Lex \x7b files: " ++ toString files ++ ", errors: " ++ toString errors ++ " \x7d"
  | disk e => "Io(" ++ e.record ++ ")"
  | json reason => "Json(" ++ Text.quote reason ++ ")"

end Fault

end Lexis
