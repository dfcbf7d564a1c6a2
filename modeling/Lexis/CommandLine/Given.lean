import Lexis.CommandLine.Grammar
import Lexis.Dump

/-!
# What is given in one scope

The values of the options and the files that stand in one scope. Values are examined one by one,
and the first that will not do ends the matter: a number of workers must be a 64-bit number, a
path must not be empty, a format must be known. Except for namespaces, an option may be given only
once.
-/

namespace Lexis.CommandLine

/-- Why the command line is not carried out. -/
inductive Stop where
  /-- It cannot be understood. -/
  | usage
  /-- It asks for the version. -/
  | version (scope : Scope)
  /-- It asks how to use the program. -/
  | help (scope : Scope)
deriving DecidableEq, Repr

/-- Options and files of one scope. -/
structure Given where
  /-- Switches that are on. -/
  switches : List Switch := []
  /-- The settings file. -/
  config : Option String := none
  /-- The number of workers. -/
  jobs : Option Nat := none
  /-- The format. -/
  format : Option Format := none
  /-- Namespaces, in order. -/
  namespaces : List String := []
  /-- Where to write a settings file. -/
  path : Option String := none
  /-- Files, in order. -/
  files : List String := []
deriving DecidableEq, Repr

/-- A number without sign, or with a plus, that fits 64 bits. -/
def workers? (value : String) : Option Nat :=
  let digits := match value.toList with
    | '+' :: digits => digits
    | digits => digits
  if digits.isEmpty || !digits.all Char.isDigit then none
  else
    let n := digits.foldl (fun acc c => 10 * acc + (c.toNat - 48)) 0
    if n < Nat.pow 2 64 then some n else none

/-- A path that is not empty. -/
def path? (value : String) : Option String :=
  if value.isEmpty then none else some value

namespace Given

/-- Turns a switch on. -/
def turnOn (g : Given) (s : Switch) : Except Stop Given :=
  if g.switches.contains s then .error .usage else .ok { g with switches := s :: g.switches }

/-- A value for an option that has none yet. -/
def once {α : Type} (present : Option α) (value : Option α) : Except Stop (Option α) :=
  match present, value with
  | none, some v => .ok (some v)
  | _, _ => .error .usage

/-- Gives an option its value. -/
def give (g : Given) (p : Parameter) (value : String) : Except Stop Given := do
  match p with
  | .config => return { g with config := ← once g.config (path? value) }
  | .jobs => return { g with jobs := ← once g.jobs (workers? value) }
  | .format => return { g with format := ← once g.format (Format.ofWord? value) }
  | .nspace => return { g with namespaces := g.namespaces ++ [value] }
  | .path => return { g with path := ← once g.path (path? value) }

/-- Adds a file. -/
def addFile (g : Given) (value : String) : Except Stop Given :=
  match path? value with
  | some file => .ok { g with files := g.files ++ [file] }
  | none => .error .usage

end Given

end Lexis.CommandLine
