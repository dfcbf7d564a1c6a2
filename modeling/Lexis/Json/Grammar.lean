import Lexis.Text.Hex

/-!
# Well-formed JSON

`Json.isWellFormed` says whether a text is one JSON value with blanks around it. Beyond the
grammar, arrays and objects nest at most `nesting` deep, an escaped surrogate has its partner, and
a number must not be so large that it has no finite double.
-/

namespace Lexis.Json

open Lexis.Text

/-- How deep arrays and objects may nest. -/
def nesting : Nat := 127

/-- What follows the blanks at the front. -/
def dropBlanks (cs : List Char) : List Char :=
  cs.dropWhile fun c => c == ' ' || c == '\n' || c == '\t' || c == '\r'

/-! ### Strings -/

/-- A code that needs a partner behind it. -/
def isLeading (n : Nat) : Bool := 0xD800 ≤ n && n < 0xDC00

/-- A code that needs a partner in front of it. -/
def isTrailing (n : Nat) : Bool := 0xDC00 ≤ n && n < 0xE000

/-- A character that has a meaning behind a backslash. -/
def isEscape (c : Char) : Bool :=
  ['"', '\\', '/', 'b', 'f', 'n', 'r', 't'].contains c

/-- What follows a string, behind its opening quotation mark. -/
def string? : List Char → Option (List Char)
  | [] => none
  | '"' :: rest => some rest
  | '\\' :: 'u' :: a :: b :: c :: d :: rest =>
    match hexNumber? [a, b, c, d] with
    | none => none
    | some n =>
      if isTrailing n then none
      else if isLeading n then
        match rest with
        | '\\' :: 'u' :: e :: f :: g :: h :: rest =>
          match hexNumber? [e, f, g, h] with
          | some k => if isTrailing k then string? rest else none
          | none => none
        | _ => none
      else string? rest
  | '\\' :: c :: rest => if isEscape c then string? rest else none
  | c :: rest => if 0x20 ≤ c.toNat && c != '\\' then string? rest else none

/-! ### Numbers -/

/-- The significant digits of a number as they are kept: a 64-bit word, and a power of ten. -/
structure Magnitude where
  /-- The kept digits. -/
  digits : Nat := 0
  /-- The power of ten they are multiplied by. -/
  power : Int := 0

/-- The least number that no longer fits a word. -/
def wordEnd : Nat := Nat.pow 2 64

/-- The word with a further digit, if that fits. -/
def withDigit? (n : Nat) (c : Char) : Option Nat :=
  let next := 10 * n + (c.toNat - 48)
  if next < wordEnd then some next else none

/-- Adds the digits of the whole part. Once one does not fit, all others only raise the power. -/
def addWhole : Magnitude → List Char → Magnitude
  | m, [] => m
  | m, c :: cs =>
    match withDigit? m.digits c with
    | some n => addWhole { m with digits := n } cs
    | none => { m with power := m.power + (c :: cs).length }

-- the equations of `addWhole` would evaluate `wordEnd`, so its one step is stated by hand
theorem addWhole_cons {m : Magnitude} {c : Char} {k : Nat} (h : withDigit? m.digits c = some k)
    (cs : List Char) : addWhole m (c :: cs) = addWhole { m with digits := k } cs := by
  change (match withDigit? m.digits c with
    | some n => addWhole { m with digits := n } cs
    | none => { m with power := m.power + (c :: cs).length }) = _
  rw [h]

/-- Adds the digits of the fraction, up to the first that does not fit. -/
def addFraction : Magnitude → List Char → Magnitude
  | m, [] => m
  | m, c :: cs =>
    match withDigit? m.digits c with
    | some n => addFraction ⟨n, m.power - 1⟩ cs
    | none => m

/-- A number rounded to 53 significant bits, to even if it lies in the middle. -/
def roundToDouble (n : Nat) : Nat :=
  if n < Nat.pow 2 53 then n
  else
    let shift := n.log2 - 52
    let unit := Nat.pow 2 shift
    let low := n % unit
    let up := decide (unit < 2 * low) || (decide (2 * low = unit) && n / unit % 2 == 1)
    (n / unit + if up then 1 else 0) * unit

/-- The magnitude has no finite double: the rounded digits times the rounded power are too
large. -/
def Magnitude.isHuge (m : Magnitude) : Bool :=
  m.digits != 0 && decide (0 ≤ m.power) &&
    (decide (308 < m.power) ||
      decide (Nat.pow 2 1024 - Nat.pow 2 970 ≤
        roundToDouble m.digits * roundToDouble (Nat.pow 10 m.power.toNat)))

/-- The digits at the front, at least one, and the rest. -/
def digits? (cs : List Char) : Option (List Char × List Char) :=
  let found := cs.takeWhile Char.isDigit
  if found.isEmpty then none else some (found, cs.dropWhile Char.isDigit)

/-- The digits of the whole part: no zero in front of others. -/
def whole? : List Char → Option (List Char × List Char)
  | '0' :: rest => if (rest.head?.map Char.isDigit).getD false then none else some (['0'], rest)
  | cs => digits? cs

/-- The fraction, if there is a point. -/
def fraction? : List Char → Option (List Char × List Char)
  | '.' :: rest => digits? rest
  | cs => some ([], cs)

/-- The exponent, if there is a mark for it. -/
def exponent? (cs : List Char) : Option (Int × List Char) :=
  match cs with
  | [] => some (0, [])
  | c :: rest =>
    if c = 'e' ∨ c = 'E' then do
      let (negative, rest) := match rest with
        | '-' :: rest => (true, rest)
        | '+' :: rest => (false, rest)
        | rest => (false, rest)
      let (digits, rest) ← digits? rest
      let n : Int := digits.foldl (fun acc d => 10 * acc + (d.toNat - 48 : Nat)) 0
      return (if negative then -n else n, rest)
    else some (0, cs)

/-- What follows a number. -/
def number? (cs : List Char) : Option (List Char) := do
  let cs := match cs with
    | '-' :: rest => rest
    | _ => cs
  let (whole, rest) ← whole? cs
  let (fraction, rest) ← fraction? rest
  let (e, rest) ← exponent? rest
  let m := addFraction (addWhole {} whole) fraction
  if { m with power := m.power + e : Magnitude }.isHuge then none else some rest

/-! ### Values -/

/-- What follows a word at the front. -/
def word? (word : List Char) (cs : List Char) : Option (List Char) :=
  if word.isPrefixOf cs then some (cs.drop word.length) else none

/-- What follows the items of an array or object, which has at least one, up to its closing
mark. -/
def items? (item : List Char → Option (List Char)) (close : Char) (limit : Nat) (cs : List Char) :
    Option (List Char) :=
  match limit with
  | 0 => none
  | limit + 1 => do
    match dropBlanks (← item (dropBlanks cs)) with
    | [] => none
    | c :: rest =>
      if c = ',' then items? item close limit rest
      else if c = close then return rest
      else none

/-- What follows a name and its value. -/
def member? (value : List Char → Option (List Char)) (cs : List Char) : Option (List Char) :=
  match cs with
  | '"' :: rest => do
    match dropBlanks (← string? rest) with
    | ':' :: rest => value (dropBlanks rest)
    | _ => none
  | _ => none

/-- What follows a value that nests at most `depth` deep. -/
def value? (depth : Nat) (cs : List Char) : Option (List Char) :=
  match cs, depth with
  | '[' :: _, 0 => none
  | '\x7b' :: _, 0 => none
  | '[' :: rest, depth + 1 =>
    match dropBlanks rest with
    | ']' :: rest => some rest
    | _ => items? (value? depth) ']' rest.length rest
  | '\x7b' :: rest, depth + 1 =>
    match dropBlanks rest with
    | '\x7d' :: rest => some rest
    | _ => items? (member? (value? depth)) '\x7d' rest.length rest
  | '"' :: rest, _ => string? rest
  | 't' :: _, _ => word? ['t', 'r', 'u', 'e'] cs
  | 'f' :: _, _ => word? ['f', 'a', 'l', 's', 'e'] cs
  | 'n' :: _, _ => word? ['n', 'u', 'l', 'l'] cs
  | cs, _ => number? cs

/-- The text is one JSON value with blanks around it. -/
def isWellFormed (text : String) : Bool :=
  match value? nesting (dropBlanks text.toList) with
  | some rest => (dropBlanks rest).isEmpty
  | none => false

end Lexis.Json
