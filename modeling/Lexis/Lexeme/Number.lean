import Lexis.Lexeme.Basic

/-!
# Numbers

A number keeps its spelling. It is a base mark (`0x`, `0X`, `0b` or `0B`) and digits of that base,
or decimal digits, with a point and further digits only if **a digit follows the point**. A base
mark without a digit is a number too, with a flaw.
-/

namespace Lexis.Lexeme

open Lexis.CharClass

/-- The digits that follow `0` and the given mark. -/
def basedDigit? (mark : Char) : Option (Char → Bool) :=
  if mark = 'x' ∨ mark = 'X' then some isHexDigit
  else if mark = 'b' ∨ mark = 'B' then some isBinDigit
  else none

/-- A number in base 2 or 16, behind the `0` and its mark. -/
def based (digit : Char → Bool) (pending : List Char) (mark : Char) (cs : List Char) : Lexeme :=
  let digits := cs.takeWhile digit
  let text := '0' :: mark :: digits
  let flaws := if digits.isEmpty then [.noDigits (pending ++ text)] else []
  ⟨.int, pending ++ text, text, cs.dropWhile digit, flaws⟩

/-- A decimal number. -/
def decimal (pending cs : List Char) : Lexeme :=
  let whole := cs.takeWhile Char.isDigit
  match cs.dropWhile Char.isDigit with
  | '.' :: d :: rest =>
    if d.isDigit then
      let text := whole ++ '.' :: (d :: rest).takeWhile Char.isDigit
      ⟨.float, pending ++ text, text, (d :: rest).dropWhile Char.isDigit, []⟩
    else ⟨.int, pending ++ whole, whole, '.' :: d :: rest, []⟩
  | rest => ⟨.int, pending ++ whole, whole, rest, []⟩

/-- Scans a number. -/
def number (pending : List Char) : List Char → Lexeme
  | '0' :: mark :: cs =>
    match basedDigit? mark with
    | some digit => based digit pending mark cs
    | none => decimal pending ('0' :: mark :: cs)
  | cs => decimal pending cs

theorem decimal_append (pending cs : List Char) :
    (decimal pending cs).text ++ (decimal pending cs).rest = cs := by
  have h := List.takeWhile_append_dropWhile (p := Char.isDigit) (l := cs)
  unfold decimal
  split
  · next d rest hd =>
    rw [hd] at h
    split
    · simp only [List.append_assoc, List.cons_append, List.takeWhile_append_dropWhile]
      exact h
    · exact h
  · exact h

theorem number_append (pending cs : List Char) :
    (number pending cs).text ++ (number pending cs).rest = cs := by
  unfold number
  split
  · split
    · simp [based, List.takeWhile_append_dropWhile]
    · exact decimal_append _ _
  · exact decimal_append _ _

end Lexis.Lexeme
