import Lexis.CharClass
import Lexis.Diagnostic.Basic
import Lexis.Text.Quoted
import Lexis.Token.Basic

/-!
# Lexemes

A lexeme is what scanning finds at the front of a text: the kind and literal of a token, the
characters it takes, the text that remains, and what is wrong with it. It knows nothing of
positions; its flaws are placed afterwards, at the token or inside its text
(`Flaw.diagnostic`). For this reason scanning is a function of the text ahead alone.

Scanners take the text already **pending** in front of the cursor as an argument: characters that
were passed since the current token began. It belongs to the spelling of the token. In a plain
scan nothing is pending.
-/

namespace Lexis

/-- What can be wrong with a lexeme. -/
inductive Flaw where
  /-- The character starts no token. -/
  | unexpected (c : Char)
  /-- The string has no closing quotation mark. -/
  | unterminatedString
  /-- No digit follows the base; `spelling` is the number as far as it goes. -/
  | noDigits (spelling : List Char)
  /-- The command has no closing backtick. -/
  | unterminatedCommand
  /-- A backslash stands `skip` characters into the lexeme, before a character without an escaped
  meaning. -/
  | unknownEscape (skip : Nat) (c : Char)
deriving DecidableEq, Repr

/-- What scanning finds at the front of a text. -/
structure Lexeme where
  /-- What it is. -/
  kind : Kind
  /-- The text it stands for. -/
  literal : List Char
  /-- The characters it takes. -/
  text : List Char
  /-- The characters behind it. -/
  rest : List Char
  /-- What is wrong with it. -/
  flaws : List Flaw := []
deriving DecidableEq, Repr

namespace Flaw

/-- The report of a flaw. `token` is the span of the token; the lexeme's `text` starts at
`start`. Every flaw covers the token, except an unknown escape, which covers its two
characters. -/
def diagnostic (token : Span) (start : Position) (text : List Char) : Flaw → Diagnostic
  | unexpected c =>
    { level := .error
      message := "unexpected character '" ++ Text.escapeEither c ++ "'"
      span := token
      code := some Code.unexpectedCharacter }
  | unterminatedString =>
    { level := .error
      message := "unterminated string literal"
      span := token
      code := some Code.unterminatedString
      helps := ["add a closing `\"`"] }
  | noDigits spelling =>
    { level := .error
      message := "no digits after `" ++ String.ofList spelling ++ "` prefix"
      span := token
      code := some Code.invalidNumber }
  | unterminatedCommand =>
    { level := .error
      message := "unterminated backtick command"
      span := token
      code := some Code.unterminatedCommand
      helps := ["add a closing '`'"] }
  | unknownEscape skip c =>
    let opening := start.advance (text.take skip)
    { level := .warning
      message := "unknown escape sequence `\\" ++ Text.escapeEither c ++ "`"
      span := Span.between opening (opening.advance ['\\', c])
      code := some Code.unknownEscape
      notes := ["supported escapes are \\n \\t \\r \\\\ and \\\""] }

end Flaw

end Lexis
