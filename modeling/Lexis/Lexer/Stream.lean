import Lexis.Diagnostic.Log
import Lexis.Lexer.Basic

/-!
# Token streams

`Lexer.drain` takes every token up to and including the end of the input; `tokenize` does so from
the front of a source.
-/

namespace Lexis

namespace Lexer

/-- All tokens from here to the end of the input, the end token included. -/
def drain (l : Lexer) : Step (List Token) :=
  let step := l.next
  if _h : step.value.isEof then { step with value := [step.value] }
  else
    let more := drain step.lexer
    { value := step.value :: more.value
      lexer := more.lexer
      diagnostics := step.diagnostics ++ more.diagnostics
      notices := step.notices ++ more.notices }
termination_by l.cursor.ahead.length
decreasing_by exact ahead_next_lt l (by simpa using _h)

/-- All tokens from here to the end of the input, without the end token. -/
def remaining (l : Lexer) : Step (List Token) :=
  let all := l.drain
  { all with value := all.value.dropLast }

end Lexer

/-- Everything that reading a source brings up. -/
structure Reading where
  /-- The tokens; the last one, and no other, is the end of the input. -/
  tokens : List Token
  /-- The diagnostics, in the order in which they were reported. -/
  diagnostics : List Diagnostic
  /-- The notices, in the order in which they were left. -/
  notices : List Notice := []

/-- Reads a source from its front to its end. -/
def tokenize (names : Namespaces) (source : String) : Reading :=
  let all := (Lexer.start names source).drain
  ⟨all.value, all.diagnostics, all.notices⟩

/-- Reads a source and adds its diagnostics to a log. -/
def Log.tokenize (log : Log) (names : Namespaces) (source : String) : List Token × Log :=
  let reading := Lexis.tokenize names source
  (reading.tokens, log.reportAll reading.diagnostics)

end Lexis
