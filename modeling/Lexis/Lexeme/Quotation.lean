import Lexis.Lexeme.Basic

/-!
# Strings

The body of a string is a sequence of **pieces**: a plain character, a backslash with the character
behind it, or a backslash at the very end of the input. A string ends at the first quotation mark
that is a plain piece. An escape without a meaning stands for its character, with a flaw; a
backslash at the end stands for nothing.
-/

namespace Lexis.Lexeme

/-- One piece of the body of a string. -/
inductive Piece where
  /-- A character that stands for itself. -/
  | plain (c : Char)
  /-- A backslash and the character behind it. -/
  | escape (c : Char)
  /-- A backslash at the end of the input. -/
  | dangling
deriving DecidableEq, Repr

/-- What an escaped character stands for, if its escape has a meaning. -/
def escaped? (c : Char) : Option Char :=
  if c = 'n' then some '\n'
  else if c = 't' then some '\t'
  else if c = 'r' then some '\r'
  else if c = '\\' then some '\\'
  else if c = '"' then some '"'
  else none

namespace Piece

/-- How a piece is spelled. -/
def text : Piece → List Char
  | plain c => [c]
  | escape c => ['\\', c]
  | dangling => ['\\']

/-- What a piece stands for. -/
def value : Piece → List Char
  | plain c => [c]
  | escape c => [(escaped? c).getD c]
  | dangling => []

/-- The flaw of a piece that stands `skip` characters into the lexeme. -/
def flaw? (skip : Nat) : Piece → Option Flaw
  | escape c => if (escaped? c).isNone then some (.unknownEscape skip c) else none
  | _ => none

end Piece

/-- The flaws of consecutive pieces, the first of which stands `skip` characters into the
lexeme. -/
def pieceFlaws (skip : Nat) : List Piece → List Flaw
  | [] => []
  | p :: ps => (p.flaw? skip).toList ++ pieceFlaws (skip + p.text.length) ps

/-- The body of a string. -/
structure Body where
  /-- Its pieces. -/
  pieces : List Piece
  /-- It ends with a quotation mark. -/
  closed : Bool
  /-- The text behind it. -/
  rest : List Char
deriving DecidableEq, Repr

/-- The body with a further piece in front. -/
def Body.cons (p : Piece) (b : Body) : Body :=
  ⟨p :: b.pieces, b.closed, b.rest⟩

/-- The closing quotation mark, if there is one. -/
def Body.close (b : Body) : List Char :=
  if b.closed then ['"'] else []

/-- How a body is spelled, with its closing quotation mark. -/
def Body.text (b : Body) : List Char :=
  b.pieces.flatMap Piece.text ++ b.close

/-- Reads the body of a string. -/
def body : List Char → Body
  | [] => ⟨[], false, []⟩
  | '"' :: rest => ⟨[], true, rest⟩
  | ['\\'] => ⟨[.dangling], false, []⟩
  | '\\' :: c :: rest => (body rest).cons (.escape c)
  | c :: rest => (body rest).cons (.plain c)

/-- A character that is neither a quotation mark nor a backslash stands for itself. -/
theorem body_plain_cons {c : Char} (rest : List Char) (hquote : c ≠ '"') (hslash : c ≠ '\\') :
    body (c :: rest) = (body rest).cons (.plain c) := by
  rw [body]
  · exact hquote
  · exact fun h _ => hslash h
  · exact fun _ _ h _ => hslash h

@[simp]
theorem Body.text_cons (p : Piece) (b : Body) : (b.cons p).text = p.text ++ b.text := by
  simp only [Body.text, Body.cons, List.flatMap_cons, List.append_assoc]; rfl

@[simp]
theorem Body.pieces_cons (p : Piece) (b : Body) : (b.cons p).pieces = p :: b.pieces := rfl

@[simp]
theorem Body.closed_cons (p : Piece) (b : Body) : (b.cons p).closed = b.closed := rfl

@[simp]
theorem Body.rest_cons (p : Piece) (b : Body) : (b.cons p).rest = b.rest := rfl

theorem body_append (cs : List Char) : (body cs).text ++ (body cs).rest = cs := by
  fun_induction body cs with
  | case1 => rfl
  | case2 => rfl
  | case3 => rfl
  | case4 c rest ih => simp [Piece.text, ih]
  | case5 c rest _ _ _ ih => simp [Piece.text, ih]

/-- Scans a string whose opening mark is the next character, whatever it is. -/
def quotation (cs : List Char) : Lexeme :=
  let opening := cs.take 1
  let b := body (cs.drop 1)
  let unterminated := if b.closed then [] else [.unterminatedString]
  ⟨.string, b.pieces.flatMap Piece.value, opening ++ b.text, b.rest,
    pieceFlaws opening.length b.pieces ++ unterminated⟩

theorem quotation_append (cs : List Char) :
    (quotation cs).text ++ (quotation cs).rest = cs := by
  simp only [quotation, List.append_assoc, body_append, List.take_append_drop]

end Lexis.Lexeme
