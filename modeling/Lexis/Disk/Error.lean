import Lexis.Text.Quoted

/-!
# Failures of the disk

Why a file or directory could not be read or written. The first four are reported by the system
under a fixed number; the other two come from the program itself.
-/

namespace Lexis

/-- Why an operation on files failed. -/
inductive DiskError where
  /-- A part of the path does not exist. -/
  | notFound
  /-- Something of that name is there already. -/
  | alreadyExists
  /-- A part of the path is a file and has nothing below it. -/
  | notDirectory
  /-- The path is a directory and has no content. -/
  | isDirectory
  /-- The content is no UTF-8 text. -/
  | notText
  /-- Something is missing, as described. -/
  | missing (description : String)
deriving DecidableEq, Repr

namespace DiskError

/-- What the system says, without its number. -/
def phrase : DiskError → String
  | notFound => "No such file or directory"
  | alreadyExists => "File exists"
  | notDirectory => "Not a directory"
  | isDirectory => "Is a directory"
  | notText => "stream did not contain valid UTF-8"
  | missing description => description

/-- The number that the system gives to a failure. -/
def number? : DiskError → Option Nat
  | notFound => some 2
  | alreadyExists => some 17
  | notDirectory => some 20
  | isDirectory => some 21
  | notText => none
  | missing _ => none

/-- The family that a failure belongs to. -/
def family : DiskError → String
  | notFound => "NotFound"
  | alreadyExists => "AlreadyExists"
  | notDirectory => "NotADirectory"
  | isDirectory => "IsADirectory"
  | notText => "InvalidData"
  | missing _ => "NotFound"

/-- The failure as a sentence. -/
def message (e : DiskError) : String :=
  match e.number? with
  | some n => e.phrase ++ " (os error " ++ toString n ++ ")"
  | none => e.phrase

/-- The failure as a record, with its fields by name. -/
def record (e : DiskError) : String :=
  let fields := match e with
    | missing description =>
      "Custom \x7b kind: " ++ e.family ++ ", error: " ++ Text.quote description
    | notText => "Error \x7b kind: " ++ e.family ++ ", message: " ++ Text.quote e.phrase
    | _ =>
      "Os \x7b code: " ++ toString (e.number?.getD 0) ++ ", kind: " ++ e.family ++
        ", message: " ++ Text.quote e.phrase
  fields ++ " \x7d"

end DiskError

end Lexis
