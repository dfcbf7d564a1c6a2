import Lexis.Text.Alphabetic
import Lexis.Text.Numeric

/-!
# Character classes of the language

Names are spelled with letters and digits of every script, whereas blanks and the digits of
numbers are ASCII. Every character that may start a name may also continue one
(`isNameStart_imp_isNameContinue`); scanning a name moves forward for this reason alone.
-/

namespace Lexis.CharClass

open Lexis.Text

/-- May start a name: an underscore or an alphabetic character. -/
def isNameStart (c : Char) : Bool :=
  c == '_' || isAlphabetic c

/-- May continue a name: an underscore, an alphabetic or a numeric character. -/
def isNameContinue (c : Char) : Bool :=
  c == '_' || isAlphabetic c || isNumeric c

/-- May end a name: a question or an exclamation mark. -/
def isNameSuffix (c : Char) : Bool :=
  c == '?' || c == '!'

/-- Separates tokens: space, tab, carriage return and line feed. -/
def isBlank (c : Char) : Bool :=
  c == ' ' || c == '\t' || c == '\r' || c == '\n'

/-- An ASCII digit of a hexadecimal number, in either case. -/
def isHexDigit (c : Char) : Bool :=
  c.isDigit || ('a' ≤ c && c ≤ 'f') || ('A' ≤ c && c ≤ 'F')

/-- An ASCII digit of a binary number. -/
def isBinDigit (c : Char) : Bool :=
  c == '0' || c == '1'

/-- A digit in the given base. Numbers are written in base 2, 10 or 16; no other base has
digits. -/
def isDigitIn (base : Nat) : Char → Bool :=
  match base with
  | 2 => isBinDigit
  | 10 => Char.isDigit
  | 16 => isHexDigit
  | _ => fun _ => false

theorem isNameStart_imp_isNameContinue {c : Char} (h : isNameStart c = true) :
    isNameContinue c = true := by
  simp only [isNameStart, isNameContinue] at h ⊢
  simp [h]

/-- A plain name: one start character, then characters that continue it. -/
def isName : List Char → Bool
  | [] => false
  | c :: rest => isNameStart c && rest.all isNameContinue

end Lexis.CharClass
