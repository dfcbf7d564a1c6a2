import Lexis.Proofs.Division
import Mathlib.Algebra.Group.Nat.Defs
import Mathlib.Data.List.Forall2
import Mathlib.Data.List.Induction

/-!
# Places of a moved text

The line and the column of a position are 32-bit words. Behind a text of fewer than `2 ^ 32 - 1`
characters they are **exact**: the line counts the line feeds, the column the characters behind the
last of them (`Position.toNat_line_after`, `Position.toNat_column_after`).

When a text is put behind another one, its places move (`Shift.Moves`): offsets and lines by what
stands in front, columns on its first line only, for a later line begins inside the text. The tokens
and the reports of a division move in this way and do not change otherwise (`Division.carries`). All
numbers here are natural numbers, so no overflow can hide in the equations.
-/

namespace Lexis

/-! ### Lines and columns as numbers -/

/-- Number of characters behind the last line feed. -/
def Text.lastWidth (text : List Char) : Nat :=
  (text.reverse.takeWhile (· != '\n')).length

namespace Text

/-- The last line of a text is no wider than the text is long. -/
private theorem lastWidth_le (text : List Char) : lastWidth text ≤ text.length := by
  have h := (List.takeWhile_sublist (l := text.reverse) (· != '\n')).length_le
  rwa [List.length_reverse] at h

/-- A line feed cuts off what stands in front of it. -/
theorem lastWidth_append_of_mem (s : List Char) {t : List Char} (h : '\n' ∈ t) :
    lastWidth (s ++ t) = lastWidth t := by
  have hshort : (t.reverse.takeWhile (· != '\n')).length ≠ t.reverse.length := by
    intro hlength
    have hall := List.takeWhile_eq_self_iff.mp
      ((List.takeWhile_sublist (· != '\n')).eq_of_length hlength)
    simpa using hall '\n' (List.mem_reverse.mpr h)
  rw [lastWidth, List.reverse_append, List.takeWhile_append, if_neg hshort, lastWidth]

/-- Without a line feed a text goes on with the last line. -/
private theorem lastWidth_append_of_not_mem (s : List Char) {t : List Char} (h : '\n' ∉ t) :
    lastWidth (s ++ t) = lastWidth s + t.length := by
  have hall : ∀ c ∈ t.reverse, (c != '\n') = true :=
    Trivia.bne_newline (mt List.mem_reverse.mp h)
  rw [lastWidth, List.reverse_append, List.takeWhile_append_of_pos hall, List.length_append,
    List.length_reverse, Nat.add_comm, lastWidth]

end Text

namespace Position

private theorem after_concat (text : List Char) (c : Char) :
    after (text ++ [c]) = (after text).step c :=
  (advance_after text [c]).symm

/-- **Counters do not overflow** behind a text of fewer than `2 ^ 32 - 1` characters. By induction
from the end of the text, since the last character moves one of the counters by one at most. -/
theorem toNat_after (text : List Char) (h : text.length < 2 ^ 32 - 1) :
    (after text).line.toNat = text.count '\n' + 1 ∧
      (after text).column.toNat = Text.lastWidth text + 1 := by
  induction text using List.reverseRecOn with
  | nil => exact ⟨rfl, rfl⟩
  | append_singleton text c ih =>
    rw [List.length_append, List.length_singleton] at h
    obtain ⟨hline, hcolumn⟩ := ih (by omega)
    have hcount := List.count_le_length (a := '\n') (l := text)
    have hwidth := Text.lastWidth_le text
    rw [after_concat, step]
    split
    · next hc =>
      subst hc
      have hlast : Text.lastWidth (text ++ ['\n']) = 0 :=
        Text.lastWidth_append_of_mem text (List.mem_singleton.mpr rfl)
      refine ⟨?_, by rw [hlast]; rfl⟩
      rw [UInt32.toNat_add, hline, List.count_append, List.count_singleton_self]
      exact Nat.mod_eq_of_lt (by simp only [UInt32.toNat_one]; omega)
    · next hc =>
      have hlast : Text.lastWidth (text ++ [c]) = Text.lastWidth text + 1 :=
        Text.lastWidth_append_of_not_mem text (by simpa using Ne.symm hc)
      refine ⟨?_, ?_⟩
      · rw [hline, List.count_append, List.count_singleton]
        simp [hc]
      · rw [hlast, UInt32.toNat_add, hcolumn]
        exact Nat.mod_eq_of_lt (by simp only [UInt32.toNat_one]; omega)

/-- The line counts the line feeds in front, from one. -/
theorem toNat_line_after {text : List Char} (h : text.length < 2 ^ 32 - 1) :
    (after text).line.toNat = text.count '\n' + 1 :=
  (toNat_after text h).1

/-- The column counts the characters since the last line feed, from one. -/
theorem toNat_column_after {text : List Char} (h : text.length < 2 ^ 32 - 1) :
    (after text).column.toNat = Text.lastWidth text + 1 :=
  (toNat_after text h).2

/-- The first line lasts up to the first line feed. Without the bound on the length the count could
come back to one. -/
private theorem line_after_eq_one_iff {text : List Char} (h : text.length < 2 ^ 32 - 1) :
    (after text).line = 1 ↔ '\n' ∉ text := by
  rw [← UInt32.toNat_inj, toNat_line_after h, UInt32.toNat_one, Nat.add_eq_right,
    List.count_eq_zero]

end Position

/-! ### Moving spans -/

/-- How far a text is moved in a source. -/
structure Shift where
  /-- Bytes in front of it. -/
  bytes : Nat
  /-- Lines in front of its first line. -/
  lines : Nat
  /-- Characters in front of it on its first line. -/
  columns : Nat

/-- How far a text is moved that starts at the position and not at the origin. -/
def Position.shift (p : Position) : Shift :=
  ⟨p.offset, p.line.toNat - 1, p.column.toNat - 1⟩

namespace Shift

/-- A span of a text, and the same span after the text was moved. -/
structure Moves (m : Shift) (s t : Span) : Prop where
  start : t.start = s.start + m.bytes
  stop : t.stop = s.stop + m.bytes
  line : t.line.toNat = s.line.toNat + m.lines
  /-- Only on the first line of the text something stands in front. -/
  column : t.column.toNat = s.column.toNat + if s.line = 1 then m.columns else 0

/-- A token and the same token after the text was moved. -/
structure MovesToken (m : Shift) (t u : Token) : Prop where
  kind : u.kind = t.kind
  literal : u.literal = t.literal
  span : m.Moves t.span u.span

/-- A report and the same report after the text was moved. -/
structure MovesDiagnostic (m : Shift) (d e : Diagnostic) : Prop where
  /-- But for its span the report is the same. -/
  same : e = { d with span := e.span }
  span : m.Moves d.span e.span

/-- The tokens and reports of a text, and those of the text after it was moved. -/
structure Carries (m : Shift) (ts : List Token) (ds : List Diagnostic) (us : List Token)
    (es : List Diagnostic) : Prop where
  tokens : List.Forall₂ m.MovesToken ts us
  diagnostics : List.Forall₂ m.MovesDiagnostic ds es

end Shift

/-- **Places move with their text.** What stands in front is added to offsets and lines; it is added
to a column only on the first line, as a line feed in between cuts it off. -/
theorem moves_between {front s : List Char} (t : List Char)
    (h : (front ++ s).length < 2 ^ 32 - 1) :
    (Position.after front).shift.Moves (Span.between (Position.after s) (Position.after t))
      (Span.between (Position.after (front ++ s)) (Position.after (front ++ t))) := by
  have hlength := h
  rw [List.length_append] at hlength
  have hfront : front.length < 2 ^ 32 - 1 := by omega
  have hs : s.length < 2 ^ 32 - 1 := by omega
  refine ⟨?_, ?_, ?_, ?_⟩
  · simp only [Span.between, Position.shift, Position.offset_after, Text.byteLength_append]
    omega
  · simp only [Span.between, Position.shift, Position.offset_after, Text.byteLength_append]
    omega
  · simp only [Span.between, Position.shift, Position.toNat_line_after h,
      Position.toNat_line_after hs, Position.toNat_line_after hfront, List.count_append]
    omega
  · simp only [Span.between, Position.shift, Position.toNat_column_after h,
      Position.toNat_column_after hs, Position.toNat_column_after hfront,
      Position.line_after_eq_one_iff hs]
    by_cases hfeed : '\n' ∈ s
    · rw [Text.lastWidth_append_of_mem front hfeed, if_neg (not_not.mpr hfeed), Nat.add_zero]
    · have hself : Text.lastWidth s = s.length := by
        have hwidth := Text.lastWidth_append_of_not_mem [] hfeed
        rwa [List.nil_append, show Text.lastWidth [] = 0 from rfl, Nat.zero_add] at hwidth
      rw [Text.lastWidth_append_of_not_mem front hfeed, if_pos hfeed, hself]
      omega

/-! ### Moving tokens and reports -/

section Moving

variable {front : List Char}

/-- The token of a lexeme moves with it, and stays the same otherwise. -/
private theorem Lexeme.moves_token (x : Lexeme) {behind : List Char}
    (h : (front ++ behind).length < 2 ^ 32 - 1) :
    (Position.after front).shift.MovesToken (x.token (Position.after behind))
      (x.token (Position.after (front ++ behind))) := by
  refine ⟨rfl, rfl, ?_⟩
  simp only [Lexeme.token, Lexeme.span, Position.advance_after, List.append_assoc]
  exact moves_between _ h

/-- A flaw is placed at its lexeme or inside it, and moves with it. Only an escape has a span of its
own, between two parts of the lexeme. -/
private theorem Flaw.moves_diagnostic (f : Flaw) (x : Lexeme) {behind : List Char}
    (h : (front ++ (behind ++ x.text)).length < 2 ^ 32 - 1) :
    let p := Position.after behind
    let q := Position.after (front ++ behind)
    (Position.after front).shift.MovesDiagnostic (f.diagnostic (x.span p) p x.text)
      (f.diagnostic (x.span q) q x.text) := by
  intro p q
  simp only [List.length_append] at h
  have hspan : (Position.after front).shift.Moves (x.span p) (x.span q) :=
    (x.moves_token (by simp only [List.length_append]; omega)).span
  cases f with
  | unexpected c => exact ⟨rfl, hspan⟩
  | unterminatedString => exact ⟨rfl, hspan⟩
  | noDigits spelling => exact ⟨rfl, hspan⟩
  | unterminatedCommand => exact ⟨rfl, hspan⟩
  | unknownEscape skip c =>
    refine ⟨rfl, ?_⟩
    have htake := List.length_take_le' skip x.text
    simp only [Flaw.diagnostic, p, q, Position.advance_after, List.append_assoc]
    exact moves_between _ (by simp only [List.length_append]; omega)

/-- The reports of a lexeme move with it. -/
private theorem Lexeme.moves_diagnostics (x : Lexeme) {behind : List Char}
    (h : (front ++ (behind ++ x.text)).length < 2 ^ 32 - 1) :
    List.Forall₂ (Position.after front).shift.MovesDiagnostic
      (x.diagnostics (Position.after behind))
      (x.diagnostics (Position.after (front ++ behind))) := by
  rw [Lexeme.diagnostics, Lexeme.diagnostics, List.forall₂_map_left_iff, List.forall₂_map_right_iff,
    List.forall₂_same]
  exact fun f _ => f.moves_diagnostic x h

/-- The report of a gap moves with it. -/
private theorem Gap.moves_diagnostics (gap : Gap) {behind : List Char}
    (h : (front ++ (behind ++ gap.text)).length < 2 ^ 32 - 1) :
    List.Forall₂ (Position.after front).shift.MovesDiagnostic
      (gap.diagnostics (Position.after behind))
      (gap.diagnostics (Position.after (front ++ behind))) := by
  rcases hopen : gap.unclosed with _ | skip
  · simp [Gap.diagnostics, hopen]
  · have htake := List.length_take_le' skip gap.text
    simp only [List.length_append] at h
    simp only [Gap.diagnostics, hopen, Option.map_some, Option.toList_some, Position.advance_after,
      List.append_assoc]
    refine .cons ⟨rfl, ?_⟩ .nil
    exact moves_between _ (by simp only [List.length_append]; omega)

/-! ### Moving divisions -/

namespace Division

/-- The text that was divided. -/
def text : Division → List Char
  | ending gap => gap.text
  | item gap x more => gap.text ++ (x.text ++ more.text)

/-- **A division moves as a whole.** By induction on the division; the text behind grows by each gap
and each lexeme, while the front that it is moved by stays. -/
theorem carries (d : Division) (front behind : List Char)
    (h : (front ++ (behind ++ d.text)).length < 2 ^ 32 - 1) :
    let p := Position.after behind
    let q := Position.after (front ++ behind)
    (Position.after front).shift.Carries (d.tokens p) (d.diagnostics p) (d.tokens q)
      (d.diagnostics q) := by
  intro p q
  induction d generalizing behind with
  | ending gap =>
    refine ⟨.cons ⟨rfl, rfl, ?_⟩ .nil, gap.moves_diagnostics h⟩
    simp only [Token.eof, p, q, Position.advance_after, List.append_assoc]
    exact moves_between _ h
  | item gap x more ih =>
    have hgap : (front ++ (behind ++ gap.text)).length < 2 ^ 32 - 1 := by
      simp only [text, List.length_append] at h ⊢
      omega
    have hlexeme : (front ++ (behind ++ gap.text ++ x.text)).length < 2 ^ 32 - 1 := by
      simp only [text, List.length_append] at h ⊢
      omega
    have hmore := ih (behind ++ gap.text ++ x.text) (by simpa [text] using h)
    simp only [Division.tokens, Division.diagnostics, p, q, Position.advance_after,
      List.append_assoc front]
    refine ⟨.cons (x.moves_token hgap) hmore.tokens, ?_⟩
    exact List.rel_append (List.rel_append (gap.moves_diagnostics hgap)
      (x.moves_diagnostics hlexeme)) hmore.diagnostics

end Division

end Moving

/-- The parts of a division are all of the text, in order. -/
private theorem text_divide (names : Namespaces) (cs : List Char) :
    (divide names cs).text = cs := by
  fun_induction divide names cs with
  | case1 cs hrest =>
    have happ := Trivia.scan_append cs
    rwa [hrest, List.append_nil] at happ
  | case2 cs c rest hrest ih =>
    rw [Division.text, ih, Lexeme.scan_append, ← hrest, Trivia.scan_append]

/-- The division of a text that stands behind another one is the division of the text, moved by what
stands in front. -/
theorem carries_divide (names : Namespaces) {front cs : List Char}
    (h : (front ++ cs).length < 2 ^ 32 - 1) :
    let d := divide names cs
    (Position.after front).shift.Carries (d.tokens Position.origin) (d.diagnostics Position.origin)
      (d.tokens (Position.after front)) (d.diagnostics (Position.after front)) := by
  intro d
  have hcarries := d.carries front [] (by rwa [List.nil_append, text_divide])
  rwa [List.append_nil] at hcarries

end Lexis
