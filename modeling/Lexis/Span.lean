import Lexis.Position
import Lexis.Text.Lines

/-!
# Spans

A span is a byte range with the line and column of its start. Spans are plain data: any four
numbers form one, and the questions that need the source (`Span.snippet?`, `Span.lineText?`) say
when a span does not fit the source they are asked about.
-/

namespace Lexis

/-- A byte range of a source and the place where it starts. -/
structure Span where
  /-- First byte. -/
  start : Nat
  /-- First byte behind the range. -/
  stop : Nat
  /-- Line of the start, counted from one. -/
  line : UInt32
  /-- Column of the start in characters, counted from one. -/
  column : UInt32
deriving DecidableEq, Repr

/-- Why a span does not fit a source. -/
inductive SpanError where
  /-- The range is no slice of the source. -/
  | outOfBounds (sourceLength start stop : Nat)
  /-- The source has no such line; `lineCount` is at least one. -/
  | noSuchLine (line lineCount : Nat)
deriving DecidableEq, Repr

namespace SpanError

/-- The error as a sentence. -/
def message : SpanError → String
  | outOfBounds sourceLength start stop =>
    "Span out of bounds: source has " ++ toString sourceLength ++ " bytes, span is " ++
      toString start ++ ".." ++ toString stop
  | noSuchLine line lineCount =>
    "Invalid line number: " ++ toString line ++ " (source has " ++ toString lineCount ++
      " lines)"

/-- The error as a record, with its fields by name. -/
def record : SpanError → String
  | outOfBounds sourceLength start stop =>
    "SpanOutOfBounds \x7b source_len: " ++ toString sourceLength ++ ", span_start: " ++
      toString start ++ ", span_end: " ++ toString stop ++ " \x7d"
  | noSuchLine line lineCount =>
    "InvalidLineNumber \x7b line: " ++ toString line ++ ", max_lines: " ++
      toString lineCount ++ " \x7d"

end SpanError

namespace Span

/-- The span that points nowhere. -/
def unknown : Span := ⟨0, 0, 0, 0⟩

/-- The empty span at a place. -/
def point (p : Position) : Span := ⟨p.offset, p.offset, p.line, p.column⟩

/-- The span from one place to another. -/
def between (p q : Position) : Span := ⟨p.offset, q.offset, p.line, p.column⟩

/-- The range holds no byte. -/
def isEmpty (s : Span) : Bool :=
  decide (s.stop ≤ s.start)

/-- Number of bytes in the range; none if it ends before it starts. -/
def length (s : Span) : Nat :=
  s.stop - s.start

/-- The byte offset lies in the range. -/
def contains (s : Span) (offset : Nat) : Bool :=
  decide (s.start ≤ offset) && decide (offset < s.stop)

/-- The least span over two spans. It takes line and column from the one that starts first, and
from the **left** one if both start together. -/
def merge (s t : Span) : Span :=
  let first := if s.start ≤ t.start then s else t
  ⟨min s.start t.start, max s.stop t.stop, first.line, first.column⟩

/-- The part of the source in the range. -/
def snippet? (s : Span) (source : List Char) : Except SpanError (List Char) :=
  match Text.slice s.start s.stop source with
  | some text => .ok text
  | none => .error (.outOfBounds (Text.byteLength source) s.start s.stop)

/-- The text of the line that the span starts on, without carriage returns at its end. Even an
empty source has a first line. -/
def lineText? (s : Span) (source : List Char) : Except SpanError (List Char) :=
  let lines := Text.lines source
  let found :=
    match s.line.toNat with
    | 0 => none
    | 1 => some (lines.headD [])
    | i + 2 => lines[i + 1]?
  match found with
  | some line => .ok (Text.trimReturns line)
  | none => .error (.noSuchLine s.line.toNat (max lines.length 1))

end Span

end Lexis
