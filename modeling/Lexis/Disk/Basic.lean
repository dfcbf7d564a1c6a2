import Lexis.Disk.Error
import Lexis.Disk.Path

/-!
# The disk

What the program needs of the place where files are kept. The commands are written against this
interface, so that they run on the files of a machine as well as on a tree of files that is a
plain value.
-/

namespace Lexis

/-- Operations on files, in a monad. -/
class Disk (m : Type → Type) where
  /-- Something is at the path. -/
  isThere : String → m Bool
  /-- A directory is at the path. -/
  isDirectory : Path.Parts → m Bool
  /-- The text of the file at the path. -/
  read : String → m (Except DiskError String)
  /-- Makes the directory at the path, in a directory that is there. -/
  makeDir : Path.Parts → m (Except DiskError Unit)
  /-- Puts a text at the path, in place of what the file there held. -/
  write : String → String → m (Except DiskError Unit)

namespace Disk

variable {m : Type → Type} [Monad m] [Disk m]

/-- An attempt to make a directory; it is no failure if the directory is there. -/
def settleDir (path : Path.Parts) (outcome : Except DiskError Unit) :
    m (Except DiskError Unit) := do
  match outcome with
  | .ok () => return .ok ()
  | .error e => if ← isDirectory path then return .ok () else return .error e

/-- Makes the directory whose names are listed from the last to the first. Only if a directory
**above** it is missing, that one is made first; anything else in its way is an error. -/
def makeDirsInward (rooted : Bool) : List String → m (Except DiskError Unit)
  | [] => return .ok ()
  | name :: above => do
    let path : Path.Parts := ⟨rooted, name :: above⟩
    match ← makeDir path with
    | .error .notFound =>
      match ← makeDirsInward rooted above with
      | .error e => return .error e
      | .ok () => settleDir path (← makeDir path)
    | outcome => settleDir path outcome

/-- Makes the directories above a path that are missing. -/
def makeParents (path : String) : m (Except DiskError Unit) :=
  let above := (Path.parts path).parent
  makeDirsInward above.rooted above.inward

end Disk

end Lexis
