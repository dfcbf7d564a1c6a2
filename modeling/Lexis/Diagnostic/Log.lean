import Lexis.Diagnostic.Basic

/-!
# The log of diagnostics

Diagnostics are collected in the order in which they are reported; nothing is dropped before the
log is cleared.
-/

namespace Lexis

/-- Diagnostics in the order in which they were reported. -/
structure Log where
  /-- All reported diagnostics. -/
  diagnostics : List Diagnostic := []
deriving DecidableEq, Repr

namespace Log

/-- The log without any report. -/
def empty : Log := {}

/-- Adds one report. -/
def report (log : Log) (d : Diagnostic) : Log :=
  ⟨log.diagnostics ++ [d]⟩

/-- Adds reports in their order. -/
def reportAll (log : Log) (ds : List Diagnostic) : Log :=
  ⟨log.diagnostics ++ ds⟩

/-- Drops all reports. -/
def clear (_log : Log) : Log := empty

/-- Number of reports at a level. -/
def count (log : Log) (level : Level) : Nat :=
  log.diagnostics.countP (·.level == level)

/-- Number of errors. -/
def errorCount (log : Log) : Nat :=
  log.count .error

/-- Number of warnings. -/
def warningCount (log : Log) : Nat :=
  log.count .warning

/-- Some report is an error. -/
def hasErrors (log : Log) : Bool :=
  log.diagnostics.any (·.isError)

end Log

end Lexis
