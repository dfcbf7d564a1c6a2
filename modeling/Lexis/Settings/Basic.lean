import Lexis.CharClass
import Lexis.Disk.Path
import Lexis.Dump
import Lexis.Fault
import Lexis.Namespaces

/-!
# Settings

The settings of the program: whether it talks about its work, how many sources it reads at a time,
which namespaces are in force, and how streams are listed. Settings that come from a file are
valid: at least one worker, and every namespace a plain name. Settings that are built in the
program need not be.
-/

namespace Lexis

/-- What the program can be told once and for all. -/
structure Settings where
  /-- Talk about the work. -/
  verbose : Bool
  /-- Number of sources read at a time. -/
  jobs : Nat
  /-- Namespaces in force, in the order in which they are listed. -/
  namespaces : List String
  /-- How streams are listed. -/
  format : Format
deriving DecidableEq, Repr

namespace Settings

/-- The name of a settings file. -/
def fileName : String := "monkeyt.toml"

/-- The settings where nothing is said, on a machine with the given number of processors. -/
def standard (processors : Nat) : Settings :=
  ⟨false, processors, Namespaces.builtin, .text⟩

/-- The name can serve as a namespace. -/
def isNamespace (name : String) : Bool :=
  CharClass.isName name.toList

/-- Checks what a settings file says. The first fault counts: the number of workers, then the
first namespace that is no plain name. -/
def validate (s : Settings) : Except Fault Settings :=
  if s.jobs = 0 then .error Fault.settingsWithoutJobs
  else match s.namespaces.find? (!isNamespace ·) with
    | some bad => .error (Fault.settingsNamespace bad)
    | none => .ok s

/-- The number of workers, of which the request may give another number. -/
def effectiveJobs (s : Settings) (requested : Option Nat) : Except Fault Nat :=
  let jobs := requested.getD s.jobs
  if jobs = 0 then .error Fault.withoutJobs else .ok jobs

/-- The namespaces in force, together with those of the request. -/
def namespacesWith (s : Settings) (extra : List String) : Namespaces :=
  Namespaces.ofList (s.namespaces ++ extra)

/-- Where settings files are looked for, in this order. -/
def searchPaths (home configDirectory : Option String) : List String :=
  let below (directory : String) := Path.join (Path.join directory "monkeyt") fileName
  fileName :: (home.map fun h => below (Path.join h ".config")).toList ++
    (configDirectory.map below).toList

end Settings

end Lexis
