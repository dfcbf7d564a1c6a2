import Lexis.Command.Basic
import Lexis.Settings.Store

/-!
# Showing and creating settings

Shows the settings in force, or writes the standard settings to a file. An existing file is left
alone unless the request insists.
-/

namespace Lexis.Command

/-- What the command is asked to do. -/
structure ConfigRequest where
  /-- Talk about the work. -/
  verbose : Bool := false
  /-- Write a file. -/
  init : Bool := false
  /-- Where to write it, if not at the usual place. -/
  path : Option String := none
  /-- Write even if there is something already. -/
  force : Bool := false
deriving DecidableEq, Repr

/-- Shows settings. -/
def showSettings (settings : Settings) : Outcome :=
  match settings.toText with
  | .ok text => { out := text }
  | .error fault => { fault := some fault }

variable {m : Type → Type} [Monad m] [Disk m]

/-- Writes the standard settings to a file. -/
def initSettings (processors : Nat) (request : ConfigRequest) : m Outcome := do
  let path := request.path.getD Settings.fileName
  if (← Disk.isThere path) && !request.force then
    return { fault := some (Fault.settingsExist path) }
  else
    match ← (Settings.standard processors).save path with
    | .error fault => return { fault := some fault }
    | .ok () =>
      return {
        out := "Created " ++ path ++ "\n"
        remarks := summary request.verbose "Wrote default configuration" }

/-- Shows or creates settings. -/
def config (processors : Nat) (request : ConfigRequest) (settings : Settings) : m Outcome :=
  if request.init then initSettings processors request else return showSettings settings

end Lexis.Command
