import Lexis.Settings.Basic
import Lexis.Toml.Number
import Lexis.Toml.Writer

/-!
# Settings as a document

Settings are written in a fixed layout: the two plain settings, then a table for each group. A
list with several items has a line for each of them.
-/

namespace Lexis.Settings

/-- A text in its written form. -/
def writeString (s : String) : String :=
  String.ofList (Toml.writeText s.toList)

/-- A list of texts in its written form. -/
def writeList : List String → String
  | [] => "[]"
  | [s] => "[" ++ writeString s ++ "]"
  | many => "[\n" ++ String.join (many.map fun s => "    " ++ writeString s ++ ",\n") ++ "]"

/-- The settings as a document. It fails if the number of workers is too large for the format. -/
def toText (s : Settings) : Except Fault String :=
  if s.jobs < Toml.integerEnd then
    .ok ("verbose = " ++ (if s.verbose then "true" else "false") ++
      "\njobs = " ++ toString s.jobs ++
      "\n\n[lexer]\nnamespaces = " ++ writeList s.namespaces ++
      "\n\n[output]\nformat = " ++ writeString s.format.word ++ "\n")
  else .error Fault.settingsUnwritable

end Lexis.Settings
