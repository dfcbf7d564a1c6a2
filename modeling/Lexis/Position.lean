import Lexis.Text.Utf8

/-!
# Positions in a source

A position is a byte offset together with the line and the column that a person would count.
Lines and columns start at one, a line ends **only** at a line feed, and a column counts
characters. Both counters are 32-bit words. The position after a text is a function of that text
(`Position.after`), whatever was scanned in which steps.
-/

namespace Lexis

/-- A place between two characters of a source. -/
structure Position where
  /-- Bytes before this place. -/
  offset : Nat
  /-- Line, counted from one. -/
  line : UInt32
  /-- Column in characters, counted from one. -/
  column : UInt32
deriving DecidableEq, Repr

namespace Position

/-- The place before the first character. -/
def origin : Position := ⟨0, 1, 1⟩

/-- The place behind a character. -/
def step (p : Position) (c : Char) : Position :=
  if c = '\n' then ⟨p.offset + c.utf8Size, p.line + 1, 1⟩
  else ⟨p.offset + c.utf8Size, p.line, p.column + 1⟩

/-- The place behind a text. -/
def advance (p : Position) (text : List Char) : Position :=
  text.foldl step p

/-- The place behind a text that starts at the origin. -/
def after (text : List Char) : Position :=
  origin.advance text

@[simp]
theorem advance_nil (p : Position) : p.advance [] = p := rfl

@[simp]
theorem advance_cons (p : Position) (c : Char) (text : List Char) :
    p.advance (c :: text) = (p.step c).advance text := rfl

@[simp]
theorem advance_append (p : Position) (s t : List Char) :
    p.advance (s ++ t) = (p.advance s).advance t :=
  List.foldl_append

@[simp]
theorem offset_step (p : Position) (c : Char) : (p.step c).offset = p.offset + c.utf8Size := by
  unfold step; split <;> rfl

/-- Offsets count the bytes that were passed. -/
@[simp]
theorem offset_advance (p : Position) (text : List Char) :
    (p.advance text).offset = p.offset + Text.byteLength text := by
  induction text generalizing p with
  | nil => simp
  | cons c text ih => simp [ih, Nat.add_assoc]

end Position

end Lexis
