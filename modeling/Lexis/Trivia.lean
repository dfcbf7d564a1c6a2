import Lexis.CharClass

/-!
# Trivia

Between tokens stand blanks and comments. A line comment runs from `//` up to the next line feed,
which is not part of it; a block comment runs from `/*` to the **first** `*/` behind it and does
not nest. A block comment that is never closed takes the rest of the input.

A source may begin with a byte-order mark and then a `#!` line; this prologue is no trivia and is
dealt with once, at the start.
-/

namespace Lexis

/-- What stands in front of the next token. -/
structure Gap where
  /-- The text of the gap. -/
  text : List Char
  /-- The text behind it. -/
  rest : List Char
  /-- Characters of the gap before the block comment that is not closed, if there is one. -/
  unclosed : Option Nat := none
deriving DecidableEq, Repr

namespace Gap

/-- The gap with further text in front. -/
def prepend (text : List Char) (gap : Gap) : Gap :=
  ⟨text ++ gap.text, gap.rest, gap.unclosed.map (· + text.length)⟩

@[simp]
theorem text_prepend (text : List Char) (gap : Gap) :
    (gap.prepend text).text = text ++ gap.text := rfl

@[simp]
theorem rest_prepend (text : List Char) (gap : Gap) : (gap.prepend text).rest = gap.rest := rfl

theorem prepend_prepend (s t : List Char) (gap : Gap) :
    (gap.prepend s).prepend t = gap.prepend (t ++ s) := by
  have hcount : (fun n : Nat => n + s.length + t.length) = fun n => n + (t ++ s).length := by
    funext n
    rw [List.length_append]
    omega
  simp only [prepend, List.append_assoc, Option.map_map, Function.comp_def, hcount]

end Gap

namespace Trivia

open Lexis.CharClass

/-! ### Comments -/

/-- The body of a block comment with its `*/`, and what follows it. -/
def closing? : List Char → Option (List Char × List Char)
  | [] => none
  | '*' :: '/' :: rest => some (['*', '/'], rest)
  | c :: rest => (closing? rest).map fun found => (c :: found.1, found.2)

theorem closing?_append {cs body rest : List Char} (h : closing? cs = some (body, rest)) :
    body ++ rest = cs := by
  fun_induction closing? cs generalizing body with
  | case1 => simp at h
  | case2 =>
    obtain ⟨rfl, rfl⟩ := Prod.mk.inj (Option.some.inj h)
    rfl
  | case3 c cs _ ih =>
    obtain ⟨found, hf, hp⟩ := Option.map_eq_some_iff.mp h
    obtain ⟨rfl, rfl⟩ := Prod.mk.inj hp
    simp [ih hf]

/-- The line up to, not including, its line feed. -/
def line (cs : List Char) : Gap :=
  ⟨cs.takeWhile (· != '\n'), cs.dropWhile (· != '\n'), none⟩

/-- A block comment whose opener is the next two characters, whatever they are. -/
def block (cs : List Char) : Gap :=
  match closing? (cs.drop 2) with
  | some (body, rest) => ⟨cs.take 2 ++ body, rest, none⟩
  | none => ⟨cs, [], some 0⟩

/-! ### The gap before a token -/

/-- The longest run of blanks and comments. -/
def scan : List Char → Gap
  | [] => ⟨[], [], none⟩
  | '/' :: '/' :: cs =>
    (scan (cs.dropWhile (· != '\n'))).prepend ('/' :: '/' :: cs.takeWhile (· != '\n'))
  | '/' :: '*' :: cs =>
    match _h : closing? cs with
    | some (body, rest) => (scan rest).prepend ('/' :: '*' :: body)
    | none => ⟨'/' :: '*' :: cs, [], some 0⟩
  | c :: cs => if isBlank c then (scan cs).prepend [c] else ⟨[], c :: cs, none⟩
termination_by cs => cs.length
decreasing_by
  · have := (List.dropWhile_sublist (· != '\n') (l := cs)).length_le
    simp only [List.length_cons]; omega
  · have := congrArg List.length (closing?_append _h)
    simp only [List.length_append] at this
    simp only [List.length_cons]; omega
  · simp

/-- A gap loses and adds no character. -/
theorem scan_append (cs : List Char) : (scan cs).text ++ (scan cs).rest = cs := by
  fun_induction scan cs with
  | case1 => rfl
  | case2 cs ih => simp [ih, List.takeWhile_append_dropWhile]
  | case3 cs body rest h ih =>
    simp only [Gap.text_prepend, Gap.rest_prepend, List.append_assoc, ih, List.cons_append]
    rw [closing?_append h]
  | case4 => simp
  | case5 c cs _ _ _ ih => simp [ih]
  | case6 => rfl

/-! ### The prologue -/

/-- What stands in front of the first gap. -/
structure Prologue where
  /-- There is a byte-order mark. -/
  mark : Bool
  /-- The `#!` line, without its line feed. -/
  shebang : Option (List Char)
  /-- The text of the prologue. -/
  text : List Char
deriving DecidableEq, Repr

/-- The code point of the byte-order mark. -/
def byteOrderMark : Char := '\ufeff'

/-- The line of a text that starts with `#!`, and its line feed if it has one. -/
def shebang? : List Char → Option (List Char × List Char)
  | '#' :: '!' :: cs =>
    let line := '#' :: '!' :: cs.takeWhile (· != '\n')
    some (line, (cs.dropWhile (· != '\n')).take 1)
  | _ => none

/-- The prologue of a text. -/
def prologue (cs : List Char) : Prologue :=
  let mark := cs.head? == some byteOrderMark
  let front := if mark then [byteOrderMark] else []
  match shebang? (cs.drop front.length) with
  | some (line, feed) => ⟨mark, some line, front ++ line ++ feed⟩
  | none => ⟨mark, none, front⟩

end Trivia

end Lexis
