import Lexis.Disk.Basic
import Lexis.Fault
import Lexis.Lexer.Stream
import Lexis.Settings.Basic

/-!
# Commands

A command turns the sources it was given into output, remarks about its work, and possibly a
fault. What has been put out before a fault stays. Sources are read from disk first; a command
sees, for each path, the text or the failure.
-/

namespace Lexis

/-- How important a remark is. -/
inductive RemarkLevel where
  | debug
  | info
deriving DecidableEq, Repr

/-- The word for a level. -/
def RemarkLevel.word : RemarkLevel → String
  | debug => "DEBUG"
  | info => "INFO"

/-- A remark about the program's work. -/
structure Remark where
  /-- How important it is. -/
  level : RemarkLevel
  /-- What it says. -/
  text : String
deriving DecidableEq, Repr

/-- The remark as a line. -/
def Remark.line (r : Remark) : String :=
  r.level.word ++ " " ++ r.text

/-- What a command brings about. -/
structure Outcome where
  /-- What is put out. -/
  out : String := ""
  /-- Remarks, in the order in which they are made. -/
  remarks : List Remark := []
  /-- Why it failed, if it did. -/
  fault : Option Fault := none
deriving DecidableEq, Repr

/-- A source file and what reading it brought up. -/
structure LexedFile where
  /-- The path as it was given. -/
  path : String
  /-- The text. -/
  source : String
  /-- What reading the text brought up. -/
  reading : Reading

namespace LexedFile

/-- Number of errors. -/
def errorCount (f : LexedFile) : Nat :=
  f.reading.diagnostics.countP (·.isError)

/-- Adds up a count over files. -/
def total (count : LexedFile → Nat) : List LexedFile → Nat
  | [] => 0
  | f :: files => count f + total count files

/-- Reads the text found at a path. -/
def ofRead (names : Namespaces) (path : String) : Except DiskError String → Except Fault LexedFile
  | .ok source => .ok ⟨path, source, tokenize names source⟩
  | .error e => .error (Fault.unreadable path e)

/-- The remarks that reading the file gives rise to. -/
def remarks (f : LexedFile) : List Remark :=
  f.reading.notices.map (fun n => ⟨.debug, n.text⟩) ++
    [⟨.debug, "Lexed " ++ f.path ++ " into " ++ toString f.reading.tokens.length ++
      " token(s)"⟩]

end LexedFile

namespace Command

/-- What the disk holds at each path that was given. -/
abbrev Sources := List (String × Except DiskError String)

/-- Looks up each path that was given. -/
def readSources {m : Type → Type} [Monad m] [Disk m] (paths : List String) : m Sources :=
  paths.mapM fun path => do return (path, ← Disk.read path)

/-- Reads the sources in order, up to the first that cannot be read. -/
def lexEach (names : Namespaces) : Sources → List Remark × Except Fault (List LexedFile)
  | [] => ([], .ok [])
  | (path, content) :: more =>
    match LexedFile.ofRead names path content with
    | .error fault => ([], .error fault)
    | .ok file =>
      let (remarks, files) := lexEach names more
      (file.remarks ++ remarks, files.map (file :: ·))

/-- Reads all sources. The number of workers must be positive and there must be a source. -/
def lexAll (settings : Settings) (extra : List String) (jobs : Option Nat) (sources : Sources) :
    List Remark × Except Fault (List LexedFile) :=
  match settings.effectiveJobs jobs with
  | .error fault => ([], .error fault)
  | .ok workers =>
    if sources.isEmpty then ([], .error Fault.withoutFiles)
    else
      let (remarks, files) := lexEach (settings.namespacesWith extra) sources
      (⟨.debug, "Lexing " ++ toString sources.length ++ " file(s) with " ++ toString workers ++
        " job(s)"⟩ :: remarks, files)

/-- The remark that a command ends with, if it talks about its work. -/
def summary (verbose : Bool) (text : String) : List Remark :=
  if verbose then [⟨.info, text⟩] else []

end Command

end Lexis
