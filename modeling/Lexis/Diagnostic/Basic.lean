import Lexis.Diagnostic.Code
import Lexis.Diagnostic.Level
import Lexis.Diagnostic.Snippet
import Lexis.Span

/-!
# Diagnostics

A diagnostic says what is wrong at which span of a source, how grave it is, and what may help.
`Diagnostic.render` shows it to a person: a headline, the place, the marked line if the source has
it, then further excerpts, notes and helps in this order.
-/

namespace Lexis

/-- One remark about a source. -/
structure Diagnostic where
  /-- How grave it is. -/
  level : Level
  /-- What is wrong. -/
  message : String
  /-- Where it is. -/
  span : Span := Span.unknown
  /-- Its stable name. -/
  code : Option Code := none
  /-- Further facts. -/
  notes : List String := []
  /-- Advice. -/
  helps : List String := []
  /-- Further excerpts. -/
  snippets : List Snippet := []
deriving DecidableEq, Repr

namespace Diagnostic

/-- The remark is an error. -/
def isError (d : Diagnostic) : Bool :=
  d.level.isError

/-- Level, code and message on one line. -/
def headline (d : Diagnostic) : String :=
  match d.code with
  | some code => d.level.text ++ "[" ++ code.text ++ "]: " ++ d.message
  | none => d.level.text ++ ": " ++ d.message

/-- The excerpt at the diagnostic's own span. It shows the line that the span starts on and has a
caret for **each character of the span**, one if the span is no slice of the source. -/
def excerpt? (d : Diagnostic) (source : List Char) : Option Snippet :=
  match d.span.lineText? source with
  | .error _ => none
  | .ok line =>
    let width := match d.span.snippet? source with
      | .ok text => text.length
      | .error _ => 1
    let start := d.span.column.toNat
    some ⟨String.ofList line, d.span.line.toNat, start, start + width, none⟩

/-- The diagnostic as text, for a source that goes by a name. -/
def render (d : Diagnostic) (name : String) (source : String) : String :=
  let place := "\n  --> " ++ name ++ ":" ++ toString d.span.line.toNat ++ ":" ++
    toString d.span.column.toNat
  let excerpts := (d.excerpt? source.toList).toList ++ d.snippets
  d.headline ++ place ++
    String.join (excerpts.map fun s => "\n" ++ s.render) ++
    String.join (d.notes.map fun n => "\n  = note: " ++ n) ++
    String.join (d.helps.map fun h => "\n  = help: " ++ h)

end Diagnostic

end Lexis
