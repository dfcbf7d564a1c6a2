import Lexis.Cursor
import Lexis.Lexeme.Scan
import Lexis.Trivia

/-!
# The lexer

A lexer is a cursor in a source, the namespaces in force, the place where the current token began,
and a note whether the prologue has been dealt with. Each operation returns a value together with
the lexer behind it, the diagnostics it reports and the notices it leaves; nothing is shared and
nothing is lost.

`Lexer.next` is the one that callers use. The scanners can also be run on whatever the cursor
stands on (`Lexer.number`, `Lexer.word`, …). They do **not** begin a token: the token they return
reaches back to where the latest `next` began its own.
-/

namespace Lexis

/-- Remarks for whoever follows the lexer's work. -/
inductive Notice where
  /-- A byte-order mark was passed. -/
  | byteOrderMark
  /-- A `#!` line was passed. -/
  | shebang (line : List Char)
deriving DecidableEq, Repr

/-- The notice as a line of text. -/
def Notice.text : Notice → String
  | byteOrderMark => "skipping byte-order mark"
  | shebang line => "skipping shebang line shebang=" ++ Text.quote (String.ofList line)

/-- The state of reading a source. -/
structure Lexer where
  /-- The namespaces in force. -/
  names : Namespaces
  /-- The place in the source. -/
  cursor : Cursor
  /-- Where the current token began. -/
  began : Position
  /-- The prologue has been dealt with. -/
  opened : Bool

/-- The outcome of one operation. -/
structure Step (α : Type) where
  /-- The value. -/
  value : α
  /-- The lexer afterwards. -/
  lexer : Lexer
  /-- What was reported. -/
  diagnostics : List Diagnostic := []
  /-- What was noticed. -/
  notices : List Notice := []

namespace Lexer

/-- The lexer in front of a source. -/
def start (names : Namespaces) (source : String) : Lexer :=
  ⟨names, Cursor.start source.toList, Position.origin, false⟩

/-- The characters passed since the current token began. -/
def pending (l : Lexer) : List Char :=
  (l.cursor.sliceFrom l.began.offset).getD []

/-! ### Trivia -/

/-- Passes a gap. -/
def pass (l : Lexer) (gap : Gap) : Step Unit :=
  let cursor := l.cursor.advanceBy gap.text.length
  let report (skip : Nat) : Diagnostic :=
    { level := .error
      message := "unterminated block comment"
      span := Span.between (l.cursor.pos.advance (gap.text.take skip)) cursor.pos
      code := some Code.unterminatedComment
      helps := ["add `*/` to close the comment"] }
  { value := ()
    lexer := { l with cursor }
    diagnostics := (gap.unclosed.map report).toList }

/-- Passes the rest of the line. -/
def skipLine (l : Lexer) : Step Unit :=
  l.pass (Trivia.line l.cursor.ahead)

/-- Passes a block comment. -/
def skipBlock (l : Lexer) : Step Unit :=
  l.pass (Trivia.block l.cursor.ahead)

/-- Passes the prologue, the first time it is asked to. -/
def openSource (l : Lexer) : Step Unit :=
  if l.opened then { value := (), lexer := l }
  else
    let p := Trivia.prologue l.cursor.ahead
    { value := ()
      lexer := { l with cursor := l.cursor.advanceBy p.text.length, opened := true }
      notices := (if p.mark then [.byteOrderMark] else []) ++ (p.shebang.map .shebang).toList }

/-- Passes the prologue, then blanks and comments. -/
def skip (l : Lexer) : Step Unit :=
  let front := l.openSource
  let gap := front.lexer.pass (Trivia.scan front.lexer.cursor.ahead)
  { gap with notices := front.notices }

/-! ### Tokens -/

/-- Takes a lexeme at the cursor as part of the current token. -/
def take (l : Lexer) (x : Lexeme) : Step Token :=
  let cursor := l.cursor.advanceBy x.text.length
  let span := Span.between l.began cursor.pos
  { value := ⟨x.kind, String.ofList x.literal, span⟩
    lexer := { l with cursor }
    diagnostics := x.flaws.map (Flaw.diagnostic span l.cursor.pos x.text) }

/-- Begins a token at the cursor. -/
def begin (l : Lexer) : Lexer :=
  { l with began := l.cursor.pos }

/-- The token at the cursor, which stands behind all trivia. -/
def token (l : Lexer) : Step Token :=
  match l.cursor.ahead with
  | [] => { value := Token.eof (Span.point l.cursor.pos), lexer := l }
  | c :: rest => l.take (Lexeme.scan l.names c rest)

/-- The next token. At the end of the input it is the end token, now and ever after. -/
def next (l : Lexer) : Step Token :=
  let gap := l.skip
  let found := gap.lexer.begin.token
  { found with
    diagnostics := gap.diagnostics ++ found.diagnostics
    notices := gap.notices }

/-- The next token, or nothing at the end of the input. -/
def next? (l : Lexer) : Step (Option Token) :=
  let step := l.next
  { step with value := if step.value.isEof then none else some step.value }

/-! ### Scanners on their own -/

/-- Scans a number at the cursor. -/
def number (l : Lexer) : Step Token :=
  l.take (Lexeme.number l.pending l.cursor.ahead)

/-- Scans a string at the cursor. -/
def quotation (l : Lexer) : Step Token :=
  l.take (Lexeme.quotation l.cursor.ahead)

/-- Scans a command at the cursor. -/
def command (l : Lexer) : Step Token :=
  l.take (Lexeme.command l.cursor.ahead)

/-- Scans a word at the cursor. -/
def word (l : Lexer) : Step Token :=
  l.take (Lexeme.word l.names l.pending l.cursor.ahead)

/-- Scans a symbol, or a longer one that extends it, at the cursor. -/
def symbol (l : Lexer) (s : Symbol) : Step Token :=
  l.take (Lexeme.symbol s l.pending l.cursor.ahead)

/-! ### Progress -/

theorem ahead_pass_le (l : Lexer) (gap : Gap) :
    (l.pass gap).lexer.cursor.ahead.length ≤ l.cursor.ahead.length := by
  simp only [pass, Cursor.ahead_advanceBy, List.length_drop]; omega

theorem ahead_openSource_le (l : Lexer) :
    l.openSource.lexer.cursor.ahead.length ≤ l.cursor.ahead.length := by
  unfold openSource
  split
  · exact Nat.le_refl _
  · simp only [Cursor.ahead_advanceBy, List.length_drop]; omega

theorem ahead_skip_le (l : Lexer) :
    l.skip.lexer.cursor.ahead.length ≤ l.cursor.ahead.length :=
  Nat.le_trans (ahead_pass_le _ _) (ahead_openSource_le l)

theorem ahead_token_lt (l : Lexer) (h : l.token.value.isEof = false) :
    l.token.lexer.cursor.ahead.length < l.cursor.ahead.length := by
  unfold token at h ⊢
  split at h
  · simp [Token.isEof, Token.eof] at h
  · next c rest hahead =>
    have hpos := List.length_pos_iff.mpr (Lexeme.scan_text_ne_nil l.names c rest)
    simp only [take, Cursor.ahead_advanceBy, hahead, List.length_drop, List.length_cons]
    omega

/-- A token that is not the end of the input takes at least one character. -/
theorem ahead_next_lt (l : Lexer) (h : l.next.value.isEof = false) :
    l.next.lexer.cursor.ahead.length < l.cursor.ahead.length :=
  Nat.lt_of_lt_of_le (ahead_token_lt l.skip.lexer.begin h) (ahead_skip_le l)

end Lexer

end Lexis
