import Lexis.Toml.Reader

/-!
# Reading documents

A document is read line by line. A line is empty, a comment, a header that opens a table, a
doubled header that opens a further table of a collection, or a key with its value, which goes
into the table opened last. A byte-order mark in front is left out.
-/

namespace Lexis.Toml

/-- A document as far as it has been read. -/
structure Document where
  /-- The root table. -/
  root : Entries := []
  /-- The path of the table opened last. -/
  current : List String := []

namespace Document

/-- Adds a key with its value to the table opened last. -/
def add (doc : Document) (path : List String) (value : Value) : Option Document := do
  let root ← within .header
    (fun _ entries => addDotted path.dropLast (path.getLastD "") value entries)
    doc.current .header doc.root
  return { doc with root }

/-- Opens a table by its header. -/
def openTable (doc : Document) (path : List String) : Option Document := do
  return ⟨← Toml.openTable path.dropLast (path.getLastD "") doc.root, path⟩

/-- Opens a further table of a collection by its doubled header. -/
def openItem (doc : Document) (path : List String) : Option Document := do
  return ⟨← Toml.openItem path.dropLast (path.getLastD "") doc.root, path⟩

/-- Reads one line that does not end the document. -/
def line? (doc : Document) (cs : List Char) : Option (Document × List Char) :=
  match cs with
  | '[' :: '[' :: cs => do
    let (path, rest) ← key? nesting cs
    let rest ← (mark? ']' rest).bind (mark? ']')
    return (← doc.openItem path, ← lineEnd? rest)
  | '[' :: cs => do
    let (path, rest) ← key? nesting cs
    let rest ← mark? ']' rest
    return (← doc.openTable path, ← lineEnd? rest)
  | '\n' :: _ => do return (doc, ← newline? cs)
  | '\r' :: _ => do return (doc, ← newline? cs)
  | '#' :: _ => do return (doc, ← lineEnd? cs)
  | _ => do
    let ((path, value), rest) ← pair? (value? nesting) cs
    return (← doc.add path value, ← lineEnd? rest)

/-- Reads lines up to the end of the document, of which there are fewer than `limit`. -/
def lines? (limit : Nat) (doc : Document) (cs : List Char) : Option Document :=
  match limit with
  | 0 => none
  | limit + 1 =>
    match dropBlanks cs with
    | [] => some doc
    | cs => do
      let (doc, rest) ← line? doc cs
      lines? limit doc rest

end Document

/-- The text without a byte-order mark in front. -/
def dropMark : List Char → List Char
  | '\ufeff' :: cs => cs
  | cs => cs

/-- Reads a document; gives its root table. -/
def read? (text : String) : Option Entries :=
  let cs := dropMark text.toList
  (Document.lines? (cs.length + 1) {} cs).map Document.root

end Lexis.Toml
