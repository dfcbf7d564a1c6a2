import Lexis.Span
import Lexis.Text.Quoted
import Lexis.Token.Kind

/-!
# Tokens

A token has a kind, a literal and a span. The literal is the spelling in the source, except for
strings (their decoded text), commands (the text between the backticks) and the end of the input
(nothing).
-/

namespace Lexis

/-- One unit of a source. -/
structure Token where
  /-- What it is. -/
  kind : Kind
  /-- Its text. -/
  literal : String
  /-- Where it is. -/
  span : Span
deriving DecidableEq, Repr

namespace Token

/-- The token at the end of the input. -/
def eof (span : Span) : Token :=
  ⟨.eof, "", span⟩

/-- Whether the token is the end of the input. -/
def isEof (t : Token) : Bool :=
  t.kind == .eof

/-- Kind and quoted literal. -/
def text (t : Token) : String :=
  t.kind.label ++ " " ++ Text.quote t.literal

end Token

end Lexis
