import Lexis.Toml.Moment
import Lexis.Toml.Number
import Lexis.Toml.Table

/-!
# Reading values

Keys are plain words or quoted texts, joined by points. Arrays may be spread over several lines,
with comments, and may have a comma behind their last value; a table between braces stays on its
line and has none. Values nest at most `nesting` deep, and a key has at most as many parts.
-/

namespace Lexis.Toml

/-- How deep values may nest, and how many parts a key may have. -/
def nesting : Nat := 79

/-! ### Keys -/

/-- A character of a key without quotation marks. -/
def isKeyChar (c : Char) : Bool :=
  c.isAlphanum || c == '-' || c == '_'

/-- Reads one part of a key. -/
def keyPart? (cs : List Char) : Option (String × List Char) :=
  match shortText? cs with
  | some (text, rest) => some (String.ofList text, rest)
  | none =>
    let name := cs.takeWhile isKeyChar
    if name.isEmpty then none else some (String.ofList name, cs.dropWhile isKeyChar)

/-- Reads a key with at most `limit` parts, and the blanks around them. -/
def key? (limit : Nat) (cs : List Char) : Option (List String × List Char) :=
  match limit with
  | 0 => none
  | limit + 1 => do
    let (name, rest) ← keyPart? (dropBlanks cs)
    match dropBlanks rest with
    | '.' :: rest => do
      let (more, rest) ← key? limit rest
      return (name :: more, rest)
    | rest => return ([name], rest)

/-! ### Values -/

/-- Reads the items of an array, behind its opening bracket. There are fewer of them than
`limit`. -/
def items? (item : List Char → Option (Value × List Char)) (limit : Nat) (cs : List Char) :
    Option (List Value × List Char) :=
  match limit with
  | 0 => none
  | limit + 1 => do
    match ← dropFiller? false cs with
    | ']' :: rest => return ([], rest)
    | cs =>
      let (value, rest) ← item cs
      match ← dropFiller? false rest with
      | ',' :: rest =>
        let (more, rest) ← items? item limit rest
        return (value :: more, rest)
      | ']' :: rest => return ([value], rest)
      | _ => none

/-- Reads a key, an equals sign and a value, with the blanks around them. -/
def pair? (item : List Char → Option (Value × List Char)) (cs : List Char) :
    Option ((List String × Value) × List Char) := do
  let (path, rest) ← key? nesting cs
  let rest ← mark? '=' rest
  let (value, rest) ← item (dropBlanks rest)
  return ((path, value), dropBlanks rest)

/-- Reads the pairs of a table between braces, behind its opening brace, into the table. There are
fewer of them than `limit`. -/
def pairs? (item : List Char → Option (Value × List Char)) (limit : Nat) (entries : Entries)
    (cs : List Char) : Option (Entries × List Char) :=
  match limit with
  | 0 => none
  | limit + 1 => do
    let ((path, value), rest) ← pair? item cs
    let entries ← addDotted path.dropLast (path.getLastD "") value entries
    match rest with
    | ',' :: rest => pairs? item limit entries rest
    | '\x7d' :: rest => return (entries, rest)
    | _ => none

/-- Reads a number or a point in time. -/
def numeric? (cs : List Char) : Option (Value × List Char) :=
  (moment? cs).map (fun rest => (.moment, rest)) <|>
  (float? cs).map (fun rest => (.float, rest)) <|>
  (integer? cs).map (fun r => (.integer r.1, r.2))

/-- Reads a value that holds no other. -/
def scalar? (cs : List Char) : Option (Value × List Char) :=
  match cs with
  | [] => none
  | c :: _ =>
    if c = '"' ∨ c = apostrophe then (text? cs).map fun r => (.string (String.ofList r.1), r.2)
    else if c = 't' then (word? ['t', 'r', 'u', 'e'] cs).map fun rest => (.boolean true, rest)
    else if c = 'f' then
      (word? ['f', 'a', 'l', 's', 'e'] cs).map fun rest => (.boolean false, rest)
    else numeric? cs

/-- Reads a value that nests at most `depth` deep. -/
def value? (depth : Nat) (cs : List Char) : Option (Value × List Char) :=
  match cs, depth with
  | '[' :: _, 0 => none
  | '\x7b' :: _, 0 => none
  | '[' :: rest, depth + 1 =>
    (items? (value? depth) (rest.length + 1) rest).map fun r => (.array r.1, r.2)
  | '\x7b' :: rest, depth + 1 =>
    match dropBlanks rest with
    | '\x7d' :: rest => some (.table .inline [], rest)
    | rest =>
      (pairs? (value? depth) (rest.length + 1) [] rest).map fun r => (.table .inline r.1, r.2)
  | cs, _ => scalar? cs

end Lexis.Toml
