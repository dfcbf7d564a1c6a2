import Lexis.Program

/-!
# Running the program on a machine

The disk of the machine, and the entry point: surroundings are gathered, the program is run, and
its output, remarks and failure are passed on. Output goes to the standard output; remarks and
failures go to the standard error.
-/

namespace Lexis

/-- What a failure of the machine amounts to. -/
def DiskError.ofMachine : IO.Error → DiskError
  | .noFileOrDirectory .. => .notFound
  | .alreadyExists .. => .alreadyExists
  | .inappropriateType _ 20 _ => .notDirectory
  | .inappropriateType _ 21 _ => .isDirectory
  | e => .missing (toString e)

/-- Tries something on the machine. -/
def tryMachine {α : Type} (action : IO α) : IO (Except DiskError α) := do
  try return .ok (← action) catch e => return .error (DiskError.ofMachine e)

/-- Something can be opened at the path. -/
def canOpen (path : String) : IO Bool := do
  match ← tryMachine (IO.FS.Handle.mk path .read) with
  | .ok _ => return true
  | .error _ => return false

instance : Disk IO where
  isThere := canOpen
  isDirectory path := canOpen (path.text ++ "/.")
  read path := do
    match ← tryMachine (IO.FS.readBinFile path) with
    | .error e => return .error e
    | .ok content =>
      match String.fromUTF8? content with
      | some text => return .ok text
      | none => return .error .notText
  makeDir path := tryMachine (IO.FS.createDir path.text)
  write path text := tryMachine (IO.FS.writeFile path text)

/-- The directory for settings: the one that the environment names by a full path, else the usual
one below the home directory. -/
def configDirectory (home named : Option String) : Option String :=
  match named with
  | some path => if Path.isRooted path then some path else home.map (Path.join · ".config")
  | none => home.map (Path.join · ".config")

/-- The variables of the environment that the program looks at. -/
def watched : List String :=
  ["MONKEYT_VERBOSE", "MONKEYT_CONFIG", "MONKEYT_NO_COLOR"]

/-- The number of processors, as the machine lists them; one if it lists none. -/
def processorCount : IO Nat := do
  match ← tryMachine (IO.FS.readFile "/proc/cpuinfo") with
  | .ok listing =>
    return max 1 (Text.lines listing.toList |>.countP ("processor".toList.isPrefixOf ·))
  | .error _ => return 1

/-- What surrounds this run. -/
def surroundings (args : List String) : IO Surroundings := do
  let environment ← watched.filterMapM fun name => do
    return (← IO.getEnv name).map fun value => (name, value)
  let home ← IO.getEnv "HOME"
  let named ← IO.getEnv "XDG_CONFIG_HOME"
  return {
    args, environment
    processors := ← processorCount
    searchPaths := Settings.searchPaths home (configDirectory home named) }

end Lexis

/-- Runs the program. -/
def main (args : List String) : IO UInt32 := do
  let run : Lexis.Run ← Lexis.Program.run (← Lexis.surroundings args)
  for remark in run.remarks do
    IO.eprintln remark.line
  IO.print run.out
  match run.failure with
  | none => pure ()
  | some .usage => IO.eprint (Lexis.Program.help .program)
  | some (.fault f) => IO.eprintln ("Error: " ++ f.record)
  return UInt32.ofNat run.exitCode
