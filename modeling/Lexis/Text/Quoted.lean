import Lexis.Text.Joining
import Lexis.Text.Unprintable

/-!
# Escaped and quoted text

Text that may hold any character is shown on one line, in a form that leaves no doubt about what
it holds: NUL, tab, line feed, carriage return and the backslash have short escapes, and a
character that does not print, or that would join the character before it, is written by its code
point in lower-case hexadecimal. Which quotation marks are escaped depends on what surrounds the
text, so this is a parameter.
-/

namespace Lexis.Text

/-- Digits of a number in lower-case hexadecimal, without leading zeros. -/
def hexDigits (n : Nat) : List Char :=
  Nat.toDigits 16 n

/-- One character in escaped form; `mark` says which quotation marks are escaped. -/
def escapeChar (mark : Char → Bool) (c : Char) : List Char :=
  if c = '\x00' then ['\\', '0']
  else if c = '\t' then ['\\', 't']
  else if c = '\r' then ['\\', 'r']
  else if c = '\n' then ['\\', 'n']
  else if c = '\\' then ['\\', '\\']
  else if mark c then ['\\', c]
  else if isJoining c || !isPrintable c then
    ['\\', 'u', '\x7b'] ++ hexDigits c.toNat ++ ['\x7d']
  else [c]

/-- One character as it stands between quotation marks in a message: both kinds are escaped. -/
def escapeEither (c : Char) : String :=
  String.ofList (escapeChar (fun q => q == '\x27' || q == '"') c)

/-- A text between double quotation marks, of which those inside are escaped. -/
def quote (text : String) : String :=
  String.ofList ('"' :: text.toList.flatMap (escapeChar (· == '"')) ++ ['"'])

end Lexis.Text
