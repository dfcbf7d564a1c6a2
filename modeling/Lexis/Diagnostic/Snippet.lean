/-!
# Excerpts of a source

An excerpt shows one line of a source behind its number, and marks a range of columns on the line
below with carets. The gutter is as wide as the number, but at least three columns; the range is
marked with at least one caret.
-/

namespace Lexis

/-- One marked line. -/
structure Snippet where
  /-- The line itself. -/
  line : String
  /-- Its number. -/
  number : Nat
  /-- First marked column, counted from one. -/
  start : Nat
  /-- First column behind the mark. -/
  stop : Nat
  /-- Remark behind the carets. -/
  label : Option String := none
deriving DecidableEq, Repr

namespace Snippet

/-- An excerpt with a mark at a single column. -/
def point (line : String) (number column : Nat) : Snippet :=
  ⟨line, number, column, column, none⟩

/-- A number of equal characters. -/
def repeated (n : Nat) (c : Char) : String :=
  String.ofList (List.replicate n c)

/-- Columns in the gutter. -/
def gutter (s : Snippet) : Nat :=
  max (toString s.number).length 3

/-- Blanks before the first caret. -/
def indent (s : Snippet) : Nat :=
  s.start - 1

/-- Number of carets. -/
def carets (s : Snippet) : Nat :=
  max (s.stop - s.start) 1

/-- The excerpt as two lines of text, without a line feed at the end. -/
def render (s : Snippet) : String :=
  let digits := toString s.number
  let label := match s.label with
    | some text => " " ++ text
    | none => ""
  repeated (s.gutter - digits.length) ' ' ++ digits ++ " | " ++ s.line ++ "\n" ++
    repeated s.gutter ' ' ++ " | " ++ repeated s.indent ' ' ++ repeated s.carets '^' ++ label

end Snippet

end Lexis
