import Lexis.Position

/-!
# The cursor

A cursor stands between the characters it has passed and those ahead of it. It only moves
forward, one character at a time, and its position is **part of its type's invariant**: it is the
position after the text behind, so no sequence of moves can bring the two out of step.
-/

namespace Lexis

/-- A place in a source, with the text on both sides of it. -/
structure Cursor where
  /-- The characters passed, the nearest first. -/
  behind : List Char
  /-- The characters ahead. -/
  ahead : List Char
  /-- The place of the cursor. -/
  pos : Position
  /-- The place is determined by the text behind. -/
  located : pos = Position.after behind.reverse

namespace Cursor

/-- The cursor in front of a text. -/
def start (source : List Char) : Cursor :=
  ⟨[], source, Position.origin, rfl⟩

/-- The whole text around the cursor. -/
def source (c : Cursor) : List Char :=
  c.behind.reverse ++ c.ahead

/-! ### Looking -/

/-- Nothing is ahead. -/
def atEnd (c : Cursor) : Bool :=
  c.ahead.isEmpty

/-- The character `n` places ahead, or NUL if the text ends before it. In ASCII text a character
is a byte, so it is looked up by its byte offset there. -/
def peek (c : Cursor) (n : Nat) : Char :=
  match Text.asciiAt? c.ahead n with
  | some x => x
  | none => (c.ahead[n]?).getD '\x00'

/-- The next character, or NUL at the end. -/
def current (c : Cursor) : Char :=
  c.peek 0

/-- The text from a byte offset up to the cursor. It exists iff the offset is not past the cursor
and lies between two characters. -/
def sliceFrom (c : Cursor) (offset : Nat) : Option (List Char) :=
  if offset ≤ c.pos.offset then
    (Text.takeBytes (c.pos.offset - offset) c.behind).map List.reverse
  else none

/-! ### Moving -/

/-- Passes one character, if there is one. -/
def advance (c : Cursor) : Cursor :=
  match c.ahead with
  | [] => c
  | x :: rest =>
    ⟨x :: c.behind, rest, c.pos.step x, by
      rw [c.located]; simp [Position.after]⟩

/-- Passes a number of characters, or all there are if fewer. -/
def advanceBy : Nat → Cursor → Cursor
  | 0, c => c
  | n + 1, c => if c.atEnd then c else advanceBy n c.advance

/-- Passes the characters that satisfy a test, and counts them. -/
def eatWhile (c : Cursor) (test : Char → Bool) : Nat × Cursor :=
  let n := (c.ahead.takeWhile test).length
  (n, c.advanceBy n)

/-- Number of characters at the front that a test with a memory accepts one after the other. The
test gives the next memory, or nothing where it rejects. -/
def accepted {σ : Type} (test : σ → Char → Option σ) : σ → List Char → Nat
  | _, [] => 0
  | memory, x :: text =>
    match test memory x with
    | some memory => accepted test memory text + 1
    | none => 0

/-- Passes characters as long as a test with a memory accepts them, and counts them. -/
def eatWhileFrom {σ : Type} (c : Cursor) (test : σ → Char → Option σ) (memory : σ) :
    Nat × Cursor :=
  let n := accepted test memory c.ahead
  (n, c.advanceBy n)

/-- Passes the next character if it is the expected one. -/
def eat (c : Cursor) (expected : Char) : Bool × Cursor :=
  if c.ahead.head? = some expected then (true, c.advance) else (false, c)

/-! ### What a move does to the text -/

@[simp]
theorem ahead_advance (c : Cursor) : c.advance.ahead = c.ahead.drop 1 := by
  unfold advance; split <;> simp_all

@[simp]
theorem ahead_advanceBy (n : Nat) (c : Cursor) : (c.advanceBy n).ahead = c.ahead.drop n := by
  induction n generalizing c with
  | zero => rfl
  | succ n ih =>
    rw [advanceBy]
    split
    · simp_all [atEnd]
    · rw [ih]; simp

/-- No move changes the text that the cursor stands in. -/
@[simp]
theorem source_advance (c : Cursor) : c.advance.source = c.source := by
  unfold advance; split <;> simp_all [source]

@[simp]
theorem source_advanceBy (n : Nat) (c : Cursor) : (c.advanceBy n).source = c.source := by
  induction n generalizing c with
  | zero => rfl
  | succ n ih =>
    rw [advanceBy]
    split
    · rfl
    · rw [ih, source_advance]

end Cursor

end Lexis
