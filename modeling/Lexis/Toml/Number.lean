import Lexis.Toml.Quoted

/-!
# Numbers

Whole numbers are 64-bit: decimal with an optional sign and without leading zeros, or
hexadecimal, octal or binary behind `0x`, `0o`, `0b`. A single underscore may stand between two
digits. A decimal number with a fraction or an exponent is a floating-point number, which must
not be too large **above** zero; below zero it may round to an infinity.
-/

namespace Lexis.Toml

open Lexis.Text

/-! ### Digits -/

/-- The digits that follow a digit, underscores left out, and the rest. -/
def moreDigits (digit : Char → Bool) : List Char → List Char × List Char
  | [] => ([], [])
  | '_' :: c :: rest =>
    if digit c then
      let more := moreDigits digit rest
      (c :: more.1, more.2)
    else ([], '_' :: c :: rest)
  | c :: rest =>
    if digit c then
      let more := moreDigits digit rest
      (c :: more.1, more.2)
    else ([], c :: rest)

/-- A run of at least one digit. -/
def digits? (digit : Char → Bool) : List Char → Option (List Char × List Char)
  | [] => none
  | c :: rest =>
    if digit c then
      let more := moreDigits digit rest
      some (c :: more.1, more.2)
    else none

/-- The number that digits spell in a base. -/
def numberIn (base : Nat) (digits : List Char) : Nat :=
  digits.foldl (fun acc c => base * acc + (hexValue? c).getD 0) 0

/-! ### Whole numbers -/

/-- A sign, which is negative if it is a minus. -/
def sign : List Char → Bool × List Char
  | '-' :: cs => (true, cs)
  | '+' :: cs => (false, cs)
  | cs => (false, cs)

/-- Decimal digits without leading zeros. -/
def decimalDigits? : List Char → Option (List Char × List Char)
  | '0' :: rest => some (['0'], rest)
  | cs => digits? Char.isDigit cs

/-- The least number that is too large for a whole number. -/
def integerEnd : Nat := Nat.pow 2 63

/-- A whole number behind its base. -/
def based? (base : Nat) (digit : Char → Bool) (cs : List Char) : Option (Int × List Char) := do
  let (digits, rest) ← digits? digit cs
  let n := numberIn base digits
  if n < integerEnd then some (n, rest) else none

/-- A decimal whole number. -/
def decimal? (cs : List Char) : Option (Int × List Char) := do
  let (negative, cs) := sign cs
  let (digits, rest) ← decimalDigits? cs
  let n := numberIn 10 digits
  if negative then (if n ≤ integerEnd then some (-(n : Int), rest) else none)
  else (if n < integerEnd then some (n, rest) else none)

/-- Reads a whole number. -/
def integer? : List Char → Option (Int × List Char)
  | '0' :: 'x' :: cs => based? 16 (fun c => (hexValue? c).isSome) cs
  | '0' :: 'o' :: cs => based? 8 (fun c => '0' ≤ c && c ≤ '7') cs
  | '0' :: 'b' :: cs => based? 2 (fun c => c == '0' || c == '1') cs
  | cs => decimal? cs

/-! ### Floating-point numbers -/

/-- From here on a number rounds to an infinity. -/
def floatEnd : Nat := Nat.pow 2 1024 - Nat.pow 2 970

/-- The number `n * 10 ^ e` rounds to an infinity. Very large and very small exponents are decided
by the number of digits. -/
def overflows (n : Nat) (e : Int) : Bool :=
  let size : Int := (Nat.toDigits 10 n).length + e
  if n = 0 || size ≤ 308 then false
  else if 310 ≤ size then true
  else if 0 ≤ e then floatEnd ≤ n * Nat.pow 10 e.toNat
  else floatEnd * Nat.pow 10 (-e).toNat ≤ n

/-- The digits behind a point. -/
def fraction? : List Char → Option (List Char × List Char)
  | '.' :: cs => digits? Char.isDigit cs
  | _ => none

/-- The exponent of a number. -/
def exponent? : List Char → Option (Int × List Char)
  | c :: cs =>
    if c = 'e' ∨ c = 'E' then do
      let (negative, cs) := sign cs
      let (digits, rest) ← digits? Char.isDigit cs
      let n : Int := numberIn 10 digits
      some (if negative then -n else n, rest)
    else none
  | [] => none

/-- Reads a number with a fraction, an exponent or both. -/
def decimalFloat? (cs : List Char) : Option (List Char) := do
  let (negative, cs) := sign cs
  let (whole, cs) ← decimalDigits? cs
  let (digits, e, rest) ← match fraction? cs with
    | some (part, cs) =>
      match exponent? cs with
      | some (e, rest) => some (part, e, rest)
      | none => some (part, 0, cs)
    | none => (exponent? cs).map fun (e, rest) => ([], e, rest)
  let n := numberIn 10 (whole ++ digits)
  if !negative && overflows n (e - digits.length) then none else some rest

/-- What follows a word at the front. -/
def word? (word : List Char) (cs : List Char) : Option (List Char) :=
  if word.isPrefixOf cs then some (cs.drop word.length) else none

/-- Reads an infinity or a value that is no number. -/
def specialFloat? (cs : List Char) : Option (List Char) :=
  let cs := (sign cs).2
  word? ['i', 'n', 'f'] cs <|> word? ['n', 'a', 'n'] cs

/-- Reads a floating-point number. -/
def float? (cs : List Char) : Option (List Char) :=
  decimalFloat? cs <|> specialFloat? cs

end Lexis.Toml
