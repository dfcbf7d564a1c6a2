/-!
# Writing texts

A text is written in the plainest form that can hold it: between quotation marks if nothing needs
an escape, else between apostrophes, else over several lines, and with escapes only if nothing
else will do.
-/

namespace Lexis.Toml

/-- The longest run of a character. -/
def longestRun (mark : Char) (cs : List Char) : Nat :=
  (cs.foldl (fun (best, now) c =>
    if c = mark then (max best (now + 1), now + 1) else (best, 0)) (0, 0)).1

/-- A control character that no unescaped text holds. -/
def isControl (c : Char) : Bool :=
  (c.toNat < 0x20 && c != '\t' && c != '\n') || c.toNat == 0x7F

/-- Upper-case hexadecimal digits, at least four of them. -/
def upperHex4 (n : Nat) : List Char :=
  let digits := (Nat.toDigits 16 n).map Char.toUpper
  List.replicate (4 - digits.length) '0' ++ digits

/-- A text with escapes. Up to `marks` quotation marks in a row are left as they are, of which
`before` have just been written; line feeds are left as they are if `long`. -/
def escape (long : Bool) (marks before : Nat) : List Char → List Char
  | [] => []
  | c :: cs =>
    if c = '"' then
      if before < marks then c :: escape long marks (before + 1) cs
      else '\\' :: '"' :: escape long marks 0 cs
    else
      let written :=
        if c = '\x08' then ['\\', 'b']
        else if c = '\t' then ['\\', 't']
        else if c = '\n' then (if long then ['\n'] else ['\\', 'n'])
        else if c = '\x0c' then ['\\', 'f']
        else if c = '\r' then ['\\', 'r']
        else if c = '\\' then ['\\', '\\']
        else if isControl c then ['\\', 'u'] ++ upperHex4 c.toNat
        else [c]
      written ++ escape long marks 0 cs

/-- Marks on both sides of a text, and a line feed behind the opening ones if the text has
several lines. -/
def between (marks : List Char) (lined : Bool) (cs : List Char) : List Char :=
  marks ++ (if lined then ['\n'] else []) ++ cs ++ marks

/-- A text in its written form. -/
def writeText (cs : List Char) : List Char :=
  let lined := cs.contains '\n'
  let controls := cs.any isControl
  let backslash := cs.contains '\\'
  let quotes := longestRun '"' cs
  let apostrophes := longestRun '\x27' cs
  let short := between ['"'] false
  let long := between ['"', '"', '"'] lined
  if !controls && !backslash && quotes == 0 && !lined then short (escape false 0 0 cs)
  else if !controls && apostrophes == 0 && !lined then between ['\x27'] false cs
  else if !controls && !backslash && quotes ≤ 2 then long (escape true 2 0 cs)
  else if !controls && apostrophes ≤ 2 then between ['\x27', '\x27', '\x27'] lined cs
  else if lined then long (escape true 2 0 cs)
  else short (escape false 0 0 cs)

end Lexis.Toml
