import Lexis.Json.Quoted
import Lexis.Token.Basic

/-!
# Dumps of token streams

A stream is listed as text, one line for each token, or as a JSON array of records on a single
line. Both show kind, literal, line and column of every token and nothing else.
-/

namespace Lexis

/-- How token streams are listed. -/
inductive Format where
  /-- A line for each token. -/
  | text
  /-- A JSON array for each source. -/
  | json
deriving DecidableEq, Repr

/-- The word for a format. -/
def Format.word : Format → String
  | text => "text"
  | json => "json"

/-- The format with the given word. -/
def Format.ofWord? (word : String) : Option Format :=
  if word = "text" then some .text else if word = "json" then some .json else none

namespace Dump

/-- The line of a token, with its line feed. -/
def textLine (t : Token) : String :=
  toString t.span.line.toNat ++ ":" ++ toString t.span.column.toNat ++ " " ++ t.kind.label ++
    " " ++ Text.quote t.literal ++ "\n"

/-- A stream as text. -/
def text (tokens : List Token) : String :=
  String.join (tokens.map textLine)

/-- The record of a token. -/
def jsonRecord (t : Token) : String :=
  "\x7b\"kind\":" ++ Json.quote t.kind.label ++ ",\"literal\":" ++ Json.quote t.literal ++
    ",\"line\":" ++ toString t.span.line.toNat ++ ",\"column\":" ++
    toString t.span.column.toNat ++ "\x7d"

/-- A stream as a JSON array, without a line feed. -/
def json (tokens : List Token) : String :=
  "[" ++ ",".intercalate (tokens.map jsonRecord) ++ "]"

end Dump

end Lexis
