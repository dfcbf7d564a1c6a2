import Lexis.Text.Hex
import Lexis.Toml.Blank

/-!
# Quoted text

Texts stand between quotation marks (with escapes) or apostrophes (without), on one line, or
between three of them over several lines. A line end directly behind three opening marks does not
belong to the text, every other line end in it counts as a line feed, and up to two marks may stand
directly in front of the three closing ones.
-/

namespace Lexis.Toml

open Lexis.Text

/-- The mark around texts without escapes. -/
def apostrophe : Char := '\x27'

/-! ### Escapes -/

/-- The character with the code point that hexadecimal digits spell. -/
def codePoint? (digits : List Char) : Option Char := do
  let n ← hexNumber? digits
  if n.isValidChar then some (Char.ofNat n) else none

/-- What a single escaped character stands for. -/
def shortEscape? (c : Char) : Option Char :=
  if c = 'b' then some '\x08'
  else if c = 't' then some '\t'
  else if c = 'n' then some '\n'
  else if c = 'f' then some '\x0c'
  else if c = 'r' then some '\r'
  else if c = '"' then some '"'
  else if c = '\\' then some '\\'
  else none

/-- The character in front of what was read. -/
def consTo (c : Char) (read : Option (List Char × List Char)) : Option (List Char × List Char) :=
  read.map fun r => (c :: r.1, r.2)

/-! ### On one line -/

/-- Reads a text with escapes up to its closing quotation mark. -/
def basicBody : List Char → Option (List Char × List Char)
  | [] => none
  | '"' :: rest => some ([], rest)
  | '\\' :: 'u' :: a :: b :: c :: d :: rest =>
    (codePoint? [a, b, c, d]).bind fun x => consTo x (basicBody rest)
  | '\\' :: 'U' :: a :: b :: c :: d :: e :: f :: g :: h :: rest =>
    (codePoint? [a, b, c, d, e, f, g, h]).bind fun x => consTo x (basicBody rest)
  | '\\' :: c :: rest => (shortEscape? c).bind fun x => consTo x (basicBody rest)
  | c :: rest => if isVisible c && c != '\\' then consTo c (basicBody rest) else none

/-- Reads a text without escapes up to its closing apostrophe. -/
def literalBody : List Char → Option (List Char × List Char)
  | [] => none
  | c :: rest =>
    if c = apostrophe then some ([], rest)
    else if isVisible c then consTo c (literalBody rest)
    else none

/-! ### On several lines -/

/-- The marks behind three closing marks that still belong to the text, and the rest. -/
def closingMarks (mark : Char) (rest : List Char) : List Char × List Char :=
  let extra := (rest.take 2).takeWhile (· == mark)
  (extra, rest.drop extra.length)

/-- Three marks are at the front. -/
def startsTriple (mark : Char) (cs : List Char) : Bool :=
  cs.take 3 == [mark, mark, mark]

/-- A backslash that is followed by nothing but blanks on its line joins the lines. -/
def joinsLines (rest : List Char) : Bool :=
  (newline? (dropBlanks rest)).isSome

/-- Reads a text with escapes up to its three closing quotation marks. While `joining`, blanks and
line ends are left out. -/
def longBasicBody (joining : Bool) : List Char → Option (List Char × List Char)
  | [] => none
  | '\r' :: '\n' :: rest =>
    if joining then longBasicBody true rest else consTo '\n' (longBasicBody false rest)
  | '"' :: '"' :: '"' :: rest => some (closingMarks '"' rest)
  | '\\' :: 'u' :: a :: b :: c :: d :: rest =>
    (codePoint? [a, b, c, d]).bind fun x => consTo x (longBasicBody false rest)
  | '\\' :: 'U' :: a :: b :: c :: d :: e :: f :: g :: h :: rest =>
    (codePoint? [a, b, c, d, e, f, g, h]).bind fun x => consTo x (longBasicBody false rest)
  | '\\' :: c :: rest =>
    match shortEscape? c with
    | some x => consTo x (longBasicBody false rest)
    | none => if joinsLines (c :: rest) then longBasicBody true (c :: rest) else none
  | c :: rest =>
    if joining && (isBlank c || c == '\n') then longBasicBody true rest
    else if (isVisible c || c == '\n') && c != '\\' then consTo c (longBasicBody false rest)
    else none

/-- Reads a text without escapes up to its three closing apostrophes. -/
def longLiteralBody : List Char → Option (List Char × List Char)
  | [] => none
  | '\r' :: '\n' :: rest => consTo '\n' (longLiteralBody rest)
  | c :: rest =>
    if startsTriple apostrophe (c :: rest) then some (closingMarks apostrophe (rest.drop 2))
    else if isVisible c || c == '\n' then consTo c (longLiteralBody rest)
    else none

/-- What follows a line end directly behind the opening marks. -/
def dropFirstNewline (cs : List Char) : List Char :=
  (newline? cs).getD cs

/-! ### Any text -/

/-- Reads a text on one line. -/
def shortText? : List Char → Option (List Char × List Char)
  | [] => none
  | c :: rest =>
    if c = '"' then basicBody rest
    else if c = apostrophe then literalBody rest
    else none

/-- Reads a text in any form. -/
def text? (cs : List Char) : Option (List Char × List Char) :=
  if startsTriple '"' cs then longBasicBody false (dropFirstNewline (cs.drop 3))
  else if startsTriple apostrophe cs then longLiteralBody (dropFirstNewline (cs.drop 3))
  else shortText? cs

end Lexis.Toml
