import Lexis.Disk.Basic
import Lexis.Settings.Decode
import Lexis.Settings.Encode

/-!
# Settings on disk

Loading settings from a file, finding the file, and saving settings to one.
-/

namespace Lexis.Settings

variable {m : Type → Type} [Monad m] [Disk m]

/-- Loads the settings from a file that must be there. -/
def load (processors : Nat) (path : String) : m (Except Fault Settings) := do
  if ← Disk.isThere path then
    match ← Disk.read path with
    | .ok text => return ofText processors text
    | .error e => return .error (.disk e)
  else return .error (Fault.settingsMissing path)

/-- The first of the paths at which there is something. -/
def find (paths : List String) : m (Option String) :=
  paths.findM? fun path => Disk.isThere path

/-- Loads the settings from the file that was asked for, else from the first that is found, and
takes the standard settings if there is none. -/
def loadFrom (processors : Nat) (requested : Option String) (paths : List String) :
    m (Except Fault Settings) := do
  match requested with
  | some path => load processors path
  | none =>
    match ← find paths with
    | some path => load processors path
    | none => return .ok (standard processors)

/-- Saves the settings to a file. Directories that are missing above it are made first. -/
def save (s : Settings) (path : String) : m (Except Fault Unit) := do
  match ← Disk.makeParents path with
  | .error e => return .error (.disk e)
  | .ok () =>
    match s.toText with
    | .error fault => return .error fault
    | .ok text =>
      match ← Disk.write path text with
      | .error e => return .error (.disk e)
      | .ok () => return .ok ()

end Lexis.Settings
