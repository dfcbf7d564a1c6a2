import Lexis.CommandLine.Invocation

/-!
# The program

One run of the program: the command line is read, the settings are loaded, and the command is
carried out. Remarks of level `debug` are shown only if the command line or the environment asks
for them; the settings can ask for summaries, which are of level `info`.
-/

namespace Lexis

/-- What a run needs to know of its surroundings. -/
structure Surroundings where
  /-- Arguments, without the name of the program. -/
  args : List String
  /-- The environment. -/
  environment : CommandLine.Environment := []
  /-- Number of processors. -/
  processors : Nat
  /-- Where settings files are looked for, in this order. -/
  searchPaths : List String

/-- Why a run fails. -/
inductive Failure where
  /-- The command line cannot be understood. -/
  | usage
  /-- The command failed. -/
  | fault (f : Fault)
deriving DecidableEq, Repr

/-- What a run brings about. -/
structure Run where
  /-- What is put out. -/
  out : String := ""
  /-- Remarks that are shown, in order. -/
  remarks : List Remark := []
  /-- Why it failed, if it did. -/
  failure : Option Failure := none
deriving DecidableEq, Repr

/-- The number that a run ends with. -/
def Run.exitCode (r : Run) : Nat :=
  match r.failure with
  | none => 0
  | some .usage => 2
  | some (.fault _) => 1

namespace Program

open CommandLine

/-- The version of the program. -/
def version : String := "0.1.0"

/-- How to use the program. -/
def help (scope : Scope) : String :=
  let usage := match scope with
    | .program => "[OPTIONS] <tokens|check|config>"
    | .tokens => "[OPTIONS] <FILES>..."
    | .check => "[OPTIONS] <FILES>..."
    | .config => "[OPTIONS]"
  let line (choice : String × Option Char × Choice) : String :=
    let letter := match choice.2.1 with
      | some c => "-" ++ String.ofList [c] ++ ", "
      | none => "    "
    "  " ++ letter ++ "--" ++ choice.1 ++ "\n"
  "Usage: " ++ scope.programName ++ " " ++ usage ++ "\n\nOptions:\n" ++
    String.join (scope.choices.map line)

/-- The run of a command line that is not carried out. -/
def stopped : Stop → Run
  | .usage => { failure := some .usage }
  | .version scope => { out := scope.programName ++ " " ++ version ++ "\n" }
  | .help scope => { out := help scope }

/-- The run of a command, of which the remarks are shown that were asked for. -/
def carriedOut (debug : Bool) (outcome : Outcome) : Run :=
  { out := outcome.out
    remarks := outcome.remarks.filter fun r => debug || r.level == .info
    failure := outcome.fault.map .fault }

variable {m : Type → Type} [Monad m] [Disk m]

/-- Carries out a command under settings. -/
def perform (processors : Nat) (invocation : Invocation) (settings : Settings) : m Outcome := do
  let verbose := invocation.verbose || settings.verbose
  match invocation.task with
  | .tokens files format namespaces =>
    let sources ← Command.readSources files
    return Command.tokens ⟨verbose, format, namespaces, invocation.jobs⟩ settings sources
  | .check files namespaces =>
    let sources ← Command.readSources files
    return Command.check ⟨verbose, namespaces, invocation.jobs⟩ settings sources
  | .config init path force =>
    Command.config processors ⟨verbose, init, path, force⟩ settings

/-- Runs the program. Settings are loaded before any command is carried out. -/
def run (s : Surroundings) : m Run := do
  match CommandLine.read s.args s.environment with
  | .error stop => return stopped stop
  | .ok invocation =>
    match ← Settings.loadFrom s.processors invocation.config s.searchPaths with
    | .error fault => return { failure := some (.fault fault) }
    | .ok settings =>
      return carriedOut invocation.verbose (← perform s.processors invocation settings)

end Program

end Lexis
