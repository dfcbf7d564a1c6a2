/-!
# Codes of diagnostics

A code is a short family mark and a number. It is written with at least four digits.
-/

namespace Lexis

/-- A stable name for one kind of problem. -/
structure Code where
  /-- The family: `E` for errors and `W` for warnings of the lexer. -/
  family : String
  /-- Number within the family. -/
  number : Nat
deriving DecidableEq, Repr

namespace Code

/-- A decimal number with leading zeros up to the given width. -/
def padded (width n : Nat) : String :=
  let digits := toString n
  String.ofList (List.replicate (width - digits.length) '0') ++ digits

/-- The code as it is printed. -/
def text (code : Code) : String :=
  code.family ++ padded 4 code.number

/-- The code with the name of its type. -/
def record (code : Code) : String :=
  "DiagnosticCode(" ++ code.text ++ ")"

/-- A character that starts no token. -/
def unexpectedCharacter : Code := ⟨"E", 1001⟩

/-- A string without its closing quotation mark. -/
def unterminatedString : Code := ⟨"E", 1002⟩

/-- A based number without digits. -/
def invalidNumber : Code := ⟨"E", 1003⟩

/-- A block comment that is not closed. -/
def unterminatedComment : Code := ⟨"E", 1005⟩

/-- A command without its closing mark. -/
def unterminatedCommand : Code := ⟨"E", 1006⟩

/-- A backslash before a character that has no escaped meaning. -/
def unknownEscape : Code := ⟨"W", 1001⟩

end Code

end Lexis
