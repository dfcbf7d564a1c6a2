/-!
# Blanks, comments and line ends

Blanks are spaces and tabs. A comment runs from `#` to the end of its line and holds no control
character except the tab. A line ends with a line feed, which may follow a carriage return, or
with the document.
-/

namespace Lexis.Toml

/-- A space or a tab. -/
def isBlank (c : Char) : Bool :=
  c == ' ' || c == '\t'

/-- What follows the blanks at the front. -/
def dropBlanks (cs : List Char) : List Char :=
  cs.dropWhile isBlank

/-- A character that may stand in a comment: a tab, or one that is no control character. -/
def isVisible (c : Char) : Bool :=
  c == '\t' || (0x20 ≤ c.toNat && c.toNat != 0x7F)

/-- What follows the line end at the front. -/
def newline? : List Char → Option (List Char)
  | '\n' :: cs => some cs
  | '\r' :: '\n' :: cs => some cs
  | _ => none

/-- What follows a line whose content has been read: only blanks and a comment may come before
its end. -/
def lineEnd? (cs : List Char) : Option (List Char) :=
  let rest := match dropBlanks cs with
    | '#' :: comment => comment.dropWhile isVisible
    | other => other
  if rest.isEmpty then some [] else newline? rest

/-- What follows blanks, comments and line ends. `commented` says whether a comment is open; a
comment must end with its line. -/
def dropFiller? (commented : Bool) : List Char → Option (List Char)
  | [] => if commented then none else some []
  | '\n' :: cs => dropFiller? false cs
  | '\r' :: '\n' :: cs => dropFiller? false cs
  | c :: cs =>
    if commented then (if isVisible c then dropFiller? true cs else none)
    else if isBlank c then dropFiller? false cs
    else if c = '#' then dropFiller? true cs
    else if c = '\r' then none
    else some (c :: cs)

end Lexis.Toml
