import Lexis.Command.Basic

/-!
# Checking sources

A report on every source, in order: each diagnostic, then a line that says how many there are. The
command fails iff some source has an error; warnings do not count.
-/

namespace Lexis.Command

/-- What the command is asked to do. -/
structure CheckRequest where
  /-- Talk about the work. -/
  verbose : Bool := false
  /-- Namespaces beside those of the settings. -/
  namespaces : List String := []
  /-- Number of workers, if not as the settings say. -/
  jobs : Option Nat := none
deriving DecidableEq, Repr

/-- The line at the end of a report. -/
def verdict (file : LexedFile) : String :=
  let diagnostics := file.reading.diagnostics
  if diagnostics.isEmpty then file.path ++ ": ok\n"
  else
    file.path ++ ": " ++ toString file.errorCount ++ " error(s), " ++
      toString (diagnostics.length - file.errorCount) ++ " warning(s)\n"

/-- The report on one source. -/
def report (file : LexedFile) : String :=
  String.join (file.reading.diagnostics.map fun d => d.render file.path file.source ++ "\n\n") ++
    verdict file

/-- Reports on all sources. -/
def check (request : CheckRequest) (settings : Settings) (sources : Sources) : Outcome :=
  match lexAll settings request.namespaces request.jobs sources with
  | (remarks, .error fault) => { remarks, fault := some fault }
  | (remarks, .ok files) =>
    let failed := files.countP (0 < ·.errorCount)
    let errors := LexedFile.total (·.errorCount) files
    { out := String.join (files.map report)
      remarks := remarks ++ summary request.verbose
        ("Checked " ++ toString files.length ++ " file(s): " ++
          toString (files.length - failed) ++ " clean")
      fault := if 0 < errors then some (.lexical failed errors) else none }

end Lexis.Command
