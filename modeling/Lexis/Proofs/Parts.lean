import Lexis.Proofs.Placement
import Lexis.Proofs.Reports

/-!
# Parts of a source

A span **covers a part of the source** (`Span.Covers`) if it runs from the position in front of the
part to the position behind it. What one may ask of a span follows from this: it runs forward, it is
cut between characters (`Span.Covers.bounds`), and its line and column are those that a person
counts at its start (`Span.Covers.isPlaceOf`), as long as the source is short enough for them to be
counted.

What a cursor can cut out is told by the text behind it alone (`Cursor.sliceFrom_eq_some_iff`): the
slice fails past the cursor and inside a character, and nowhere else
(`Cursor.sliceFrom_eq_none_iff`).
-/

namespace Lexis

/-! ### Cutting texts -/

namespace Text

private theorem byteLength_reverse (text : List Char) :
    byteLength text.reverse = byteLength text := by
  induction text with
  | nil => rfl
  | cons c text ih =>
    rw [List.reverse_cons, byteLength_append, ih, byteLength_cons, byteLength_cons, byteLength_nil]
    omega

/-- The first bytes of a text are a front part of it, if they end between two characters; nothing is
cut off inside of one. -/
private theorem takeBytes_eq_some_iff {n : Nat} {text front : List Char} :
    takeBytes n text = some front ↔ (∃ back, front ++ back = text) ∧ byteLength front = n := by
  constructor
  · intro h
    refine ⟨?_, byteLength_of_takeBytes h⟩
    fun_induction takeBytes n text generalizing front with
    | case1 text =>
      obtain rfl := Option.some.inj h
      exact ⟨text, rfl⟩
    | case2 => cases h
    | case3 n c text hc ih =>
      obtain ⟨more, hmore, rfl⟩ := Option.map_eq_some_iff.mp h
      obtain ⟨back, rfl⟩ := ih hmore
      exact ⟨back, rfl⟩
    | case4 => cases h
  · rintro ⟨⟨back, rfl⟩, rfl⟩
    exact takeBytes_append front back

/-- Of two front parts of a text the one with fewer bytes is a front part of the other, since both
are cut from one list of characters. -/
theorem prefix_of_byteLength_le {s t text : List Char} (hs : s <+: text) (ht : t <+: text)
    (h : byteLength s ≤ byteLength t) : s <+: t := by
  rcases List.prefix_or_prefix_of_prefix hs ht with hst | ⟨more, rfl⟩
  · exact hst
  · have hmore : byteLength more = 0 := by
      rw [byteLength_append] at h
      omega
    obtain rfl := byteLength_eq_zero.mp hmore
    exact ⟨[], by rw [List.append_nil, List.append_nil]⟩

end Text

namespace Cursor

variable {c d : Cursor}

/-- The offset of a cursor counts the bytes it has passed. -/
theorem offset_pos (c : Cursor) : c.pos.offset = Text.byteLength c.behind.reverse := by
  rw [c.located, Position.offset_after]

/-- **What a cursor cuts out** is the end of the text behind it, with the part in front as long as
the offset says. The cursor keeps that text in reverse. -/
theorem sliceFrom_eq_some_iff {offset : Nat} {t : List Char} :
    c.sliceFrom offset = some t ↔
      ∃ front, front ++ t = c.behind.reverse ∧ Text.byteLength front = offset := by
  have hpos : c.pos.offset = Text.byteLength c.behind := by
    rw [c.offset_pos, Text.byteLength_reverse]
  unfold sliceFrom
  rw [hpos]
  constructor
  · intro h
    split_ifs at h with hle
    obtain ⟨u, hu, rfl⟩ := Option.map_eq_some_iff.mp h
    obtain ⟨⟨back, hback⟩, hlength⟩ := Text.takeBytes_eq_some_iff.mp hu
    -- the cursor keeps the text behind it from back to front:
    refine ⟨back.reverse, by rw [← hback, List.reverse_append], ?_⟩
    rw [← hback, Text.byteLength_append] at hlength hle
    rw [Text.byteLength_reverse]
    omega
  · rintro ⟨front, happ, rfl⟩
    have hbehind : t.reverse ++ front.reverse = c.behind := by
      rw [← List.reverse_append, happ, List.reverse_reverse]
    have hsum : Text.byteLength c.behind = Text.byteLength t.reverse + Text.byteLength front := by
      rw [← hbehind, Text.byteLength_append, Text.byteLength_reverse front]
    rw [if_pos (by omega), hsum, Nat.add_sub_cancel, ← hbehind, Text.takeBytes_append,
      Option.map_some, List.reverse_reverse]

/-- **A slice fails past the cursor and inside a character**, and nowhere else. What is ahead makes
no difference to where characters end. -/
theorem sliceFrom_eq_none_iff {offset : Nat} :
    c.sliceFrom offset = none ↔
      c.pos.offset < offset ∨ ¬ Text.IsBoundary offset c.source := by
  rw [Option.eq_none_iff_forall_ne_some, ← not_iff_not]
  push Not
  constructor
  · rintro ⟨t, ht⟩
    obtain ⟨front, happ, rfl⟩ := sliceFrom_eq_some_iff.mp ht
    refine ⟨?_, front, t ++ c.ahead, ?_, rfl⟩
    · rw [c.offset_pos, ← happ, Text.byteLength_append]
      omega
    · rw [← List.append_assoc, happ, source]
  · rintro ⟨hle, front, back, happ, rfl⟩
    rw [c.offset_pos] at hle
    obtain ⟨t, ht⟩ := Text.prefix_of_byteLength_le ⟨back, happ⟩ ⟨c.ahead, rfl⟩ hle
    exact ⟨t, sliceFrom_eq_some_iff.mpr ⟨front, ht, rfl⟩⟩

/-- A cursor that passes a text does not move back. -/
theorem Passes.offset_le {t : List Char} (h : c.Passes t d) : c.pos.offset ≤ d.pos.offset := by
  rw [c.offset_pos, d.offset_pos, h.behind, List.reverse_append, List.reverse_reverse,
    Text.byteLength_append]
  exact Nat.le_add_right _ _

/-- A text that was passed can be cut out again, by the offset at which it was begun. -/
theorem Passes.sliceFrom {t : List Char} (h : c.Passes t d) :
    d.sliceFrom c.pos.offset = some t := by
  refine sliceFrom_eq_some_iff.mpr ⟨c.behind.reverse, ?_, c.offset_pos.symm⟩
  rw [h.behind, List.reverse_append, List.reverse_reverse]

end Cursor

/-! ### Places -/

/-- The position is a place of the source: it lies between two characters, and its line and column
are counted along the text in front of it. -/
def Position.IsPlaceOf (p : Position) (source : List Char) : Prop :=
  ∃ front, Text.takeBytes p.offset source = some front ∧
    p.line.toNat = front.count '\n' + 1 ∧ p.column.toNat = Text.lastWidth front + 1

/-- The position behind a front part is a place of the text, as long as lines and columns are too
few to wrap around. -/
private theorem Position.isPlaceOf_after {front back : List Char}
    (h : (front ++ back).length < 2 ^ 32 - 1) : (after front).IsPlaceOf (front ++ back) := by
  have hfront : front.length < 2 ^ 32 - 1 := by
    rw [List.length_append] at h
    omega
  refine ⟨front, ?_, toNat_line_after hfront, toNat_column_after hfront⟩
  rw [offset_after, Text.takeBytes_append]

/-- A cursor stands at a place of its source. -/
theorem Cursor.isPlaceOf_pos (c : Cursor) (h : c.source.length < 2 ^ 32 - 1) :
    c.pos.IsPlaceOf c.source := by
  rw [c.located]
  exact Position.isPlaceOf_after h

/-! ### Spans of parts -/

namespace Span

/-- Where a span starts. -/
def first (s : Span) : Position :=
  ⟨s.start, s.line, s.column⟩

/-- The span is that of a part of the source. -/
def Covers (source : List Char) (s : Span) : Prop :=
  ∃ front part back, front ++ (part ++ back) = source ∧
    s = between (Position.after front) (Position.after (front ++ part))

variable {source : List Char} {s : Span}

/-- **The span of a part** runs forward and is cut between characters. -/
theorem Covers.bounds (h : Covers source s) :
    s.start ≤ s.stop ∧ Text.IsBoundary s.start source ∧ Text.IsBoundary s.stop source := by
  obtain ⟨front, part, back, rfl, rfl⟩ := h
  simp only [between, Position.offset_after]
  refine ⟨?_, ⟨front, part ++ back, rfl, rfl⟩, ⟨front ++ part, back, List.append_assoc _ _ _, rfl⟩⟩
  rw [Text.byteLength_append]
  omega

/-- **The span of a part** has the line and the column of its start. -/
theorem Covers.isPlaceOf (h : Covers source s) (hshort : source.length < 2 ^ 32 - 1) :
    s.first.IsPlaceOf source := by
  obtain ⟨front, part, back, rfl, rfl⟩ := h
  exact Position.isPlaceOf_after hshort

end Span

end Lexis
