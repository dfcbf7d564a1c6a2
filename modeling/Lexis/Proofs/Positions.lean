import Lexis.Proofs.Calls

/-!
# Positions

A cursor can be moved in many ways, each of which passes a text ahead (`Walk.passes_step`), and a
copy of it can be kept and gone back to. None of this leaves the source (`Walk.Within.run`), and
where the cursor stands is told **by the text in front of it alone**: its offset, its line and its
column (`Cursor.isPlaceOf_pos`).

A span remembers where it started while the cursor goes on, across lines, escapes and comments. As
it covers a part of the source (`Lexer.covers_drain`), what it remembers is right.
-/

namespace Lexis

/-! ### Walks -/

/-- What can be done with a cursor. -/
inductive Move : Type 1 where
  /-- Passes one character. -/
  | advance
  /-- Passes a number of characters. -/
  | advanceBy (n : Nat)
  /-- Passes characters that satisfy a test. -/
  | eatWhile (test : Char → Bool)
  /-- Passes characters that a test with a memory accepts. -/
  | eatWhileFrom {σ : Type} (test : σ → Char → Option σ) (memory : σ)
  /-- Passes an expected character. -/
  | eat (expected : Char)
  /-- Keeps a copy. -/
  | save
  /-- Goes back, or ahead, to the copy with the given number, if there is one. -/
  | restore (i : Nat)

/-- The text that a move passes. A copy is gone to without passing anything. -/
def Move.passed? (c : Cursor) : Move → Option (List Char)
  | advance => some (c.ahead.take 1)
  | advanceBy n => some (c.ahead.take n)
  | eatWhile test => some (c.ahead.takeWhile test)
  | eatWhileFrom test memory => some (c.ahead.take (Cursor.accepted test memory c.ahead))
  | eat expected => some ((c.ahead.take 1).filter (· == expected))
  | save => some []
  | restore _ => none

/-- A cursor on its way, with the copies kept. -/
structure Walk where
  /-- The cursor. -/
  cursor : Cursor
  /-- The copies, in the order in which they were kept. -/
  copies : List Cursor

namespace Walk

/-- A walk in front of a text. -/
def start (source : List Char) : Walk :=
  ⟨.start source, []⟩

/-- One move. -/
def step (w : Walk) : Move → Walk
  | .advance => { w with cursor := w.cursor.advance }
  | .advanceBy n => { w with cursor := w.cursor.advanceBy n }
  | .eatWhile test => { w with cursor := (w.cursor.eatWhile test).2 }
  | .eatWhileFrom test memory => { w with cursor := (w.cursor.eatWhileFrom test memory).2 }
  | .eat expected => { w with cursor := (w.cursor.eat expected).2 }
  | .save => { w with copies := w.copies ++ [w.cursor] }
  | .restore i => { w with cursor := w.copies.getD i w.cursor }

/-- One move after the other. -/
def run (w : Walk) (moves : List Move) : Walk :=
  moves.foldl step w

end Walk

/-! ### What moves pass -/

namespace Cursor

variable {c d : Cursor}

/-- In one source, the text ahead of one cursor and not of the other was passed. -/
private theorem passes_of_source {text : List Char} (hsource : d.source = c.source)
    (hahead : c.ahead = text ++ d.ahead) : c.Passes text d := by
  refine ⟨hahead, List.reverse_injective ?_⟩
  rw [source, source, hahead, ← List.append_assoc] at hsource
  rw [List.append_cancel_right hsource, List.reverse_append, List.reverse_reverse]

private theorem passes_advance (c : Cursor) : c.Passes (c.ahead.take 1) c.advance := by
  refine passes_of_source (source_advance c) ?_
  rw [ahead_advance, List.take_append_drop]

/-- All that there is is passed, if it is less than was asked for. -/
private theorem passes_take (n : Nat) (c : Cursor) : c.Passes (c.ahead.take n) (c.advanceBy n) := by
  refine passes_of_source (source_advanceBy n c) ?_
  rw [ahead_advanceBy, List.take_append_drop]

/-- What is eaten is the next character, if it is the expected one, and nothing otherwise. -/
private theorem passes_eat (c : Cursor) (expected : Char) :
    c.Passes ((c.ahead.take 1).filter (· == expected)) (c.eat expected).2 := by
  have hpass := passes_advance c
  unfold eat
  rcases hahead : c.ahead with _ | ⟨x, rest⟩
  · exact .refl c
  · rw [hahead] at hpass
    by_cases hx : x = expected
    · simpa [hx] using hpass
    · simpa [hx] using Passes.refl c

end Cursor

namespace Walk

variable {source : List Char} {w : Walk}

/-- **What a move passes** is a front part of the text ahead. A restored cursor passes nothing by
this count, as it may stand anywhere. -/
theorem passes_step {m : Move} {text : List Char} (h : m.passed? w.cursor = some text) :
    w.cursor.Passes text (w.step m).cursor := by
  cases m with
  | restore => cases h
  | save =>
    obtain rfl := Option.some.inj h
    exact .refl _
  | advance =>
    obtain rfl := Option.some.inj h
    exact Cursor.passes_advance _
  | advanceBy | eatWhileFrom =>
    obtain rfl := Option.some.inj h
    exact Cursor.passes_take _ _
  | eatWhile test =>
    obtain rfl := Option.some.inj h
    exact Cursor.passes_advanceBy List.takeWhile_append_dropWhile.symm
  | eat expected =>
    obtain rfl := Option.some.inj h
    exact Cursor.passes_eat _ _

/-- The cursor and its copies stand in the source. -/
structure Within (source : List Char) (w : Walk) : Prop where
  cursor : w.cursor.source = source
  copies : ∀ c ∈ w.copies, c.source = source

private theorem within_start (source : List Char) : (start source).Within source :=
  ⟨rfl, nofun⟩

/-- No move leaves the source: a text ahead is passed from its front, and copies are of cursors that
were in the source themselves. -/
theorem Within.step (h : w.Within source) (m : Move) : (w.step m).Within source := by
  obtain ⟨hcursor, hcopies⟩ := h
  have hpassed : ∀ text, m.passed? w.cursor = some text → (w.step m).cursor.source = source :=
    fun _ htext => (passes_step htext).source.trans hcursor
  cases m with
  | advance | advanceBy | eatWhile | eatWhileFrom | eat => exact ⟨hpassed _ rfl, hcopies⟩
  | save =>
    refine ⟨hcursor, fun c hc => ?_⟩
    rcases List.mem_append.mp hc with hc | hc
    · exact hcopies c hc
    · exact List.mem_singleton.mp hc ▸ hcursor
  | restore i =>
    refine ⟨?_, hcopies⟩
    simp only [Walk.step, List.getD_eq_getElem?_getD]
    rcases hi : w.copies[i]? with _ | c
    · exact hcursor
    · exact hcopies c (List.mem_of_getElem? hi)

/-- **No walk leaves the source.** -/
theorem Within.run (h : w.Within source) (moves : List Move) : (w.run moves).Within source := by
  induction moves generalizing w with
  | nil => exact h
  | cons m moves ih => exact ih (h.step m)

end Walk

/-! ### Spans of a reading -/

namespace Lexer

/-- **Every span that reading brings up covers a part of the source**, that of a token and that of a
report. -/
theorem covers_drain {l : Lexer} {front pending : List Char} (h : l.Holds front pending) :
    (∀ t ∈ l.drain.value, t.span.Covers l.cursor.source) ∧
      ∀ d ∈ l.drain.diagnostics, d.span.Covers l.cursor.source := by
  obtain ⟨⟨⟨text, hpass⟩, ⟨front', pending', hnext⟩, hreports⟩, hcloses⟩ := sound_next h
  have hfirst : l.next.value.span.Covers l.cursor.source := by
    rw [hcloses.span, ← hpass.source]
    exact hnext.covers
  rcases heof : l.next.value.isEof with _ | _
  · obtain ⟨hvalue, hdiagnostics, -⟩ := drain_of_not_isEof heof
    have hlt := ahead_next_lt l heof
    obtain ⟨htokens, hmore⟩ := covers_drain hnext
    rw [hpass.source] at htokens hmore
    rw [hvalue, hdiagnostics]
    exact ⟨List.forall_mem_cons.mpr ⟨hfirst, htokens⟩, List.forall_mem_append.mpr ⟨hreports, hmore⟩⟩
  · obtain ⟨hvalue, hdiagnostics, -⟩ := drain_of_isEof heof
    rw [hvalue, hdiagnostics]
    exact ⟨List.forall_mem_singleton.mpr hfirst, hreports⟩
termination_by l.cursor.ahead.length

end Lexer

/-- **Positions are a function of the text before them**, in a source that is short enough for them
to be counted. However a cursor was moved, it stands between two characters, the text in front of it
and the text ahead are the source, and line and column are counted along the text in front. It cuts
out the text from any offset, except past itself and inside a character, and the next move passes
what it says, unless it goes to a copy. The line and the column of every token and of every report
are those of the offset where it starts. -/
theorem positions_exact (source : String) (hshort : source.toList.length < 2 ^ 32 - 1) :
    let cs := source.toList
    (∀ moves : List Move,
      let w := (Walk.start cs).run moves
      let c := w.cursor
      Text.IsBoundary c.pos.offset cs ∧ c.pos.IsPlaceOf cs ∧
        (∃ front, c.sliceFrom 0 = some front ∧ Text.takeBytes c.pos.offset cs = some front ∧
          Text.dropBytes c.pos.offset cs = some c.ahead ∧ front ++ c.ahead = cs) ∧
        (∀ b, c.sliceFrom b = none ↔ c.pos.offset < b ∨ ¬ Text.IsBoundary b cs) ∧
        ∀ m text, Move.passed? c m = some text → c.Passes text (w.step m).cursor) ∧
      ∀ names : Namespaces,
        (∀ t ∈ (tokenize names source).tokens, t.span.first.IsPlaceOf cs) ∧
          ∀ d ∈ (tokenize names source).diagnostics, d.span.first.IsPlaceOf cs := by
  intro cs
  constructor
  · intro moves w c
    have hsource : c.source = cs := ((Walk.within_start cs).run moves).cursor
    have happ : c.behind.reverse ++ c.ahead = cs := hsource
    refine ⟨⟨_, _, happ, c.offset_pos.symm⟩, ?_, ⟨c.behind.reverse, ?_, ?_, ?_, happ⟩,
      fun b => ?_, fun m text hm => Walk.passes_step hm⟩
    · rw [← hsource]
      exact c.isPlaceOf_pos (hsource ▸ hshort)
    · exact Cursor.sliceFrom_eq_some_iff.mpr ⟨[], rfl, rfl⟩
    · rw [c.offset_pos, ← happ, Text.takeBytes_append]
    · rw [c.offset_pos, ← happ, Text.dropBytes_append]
    · rw [Cursor.sliceFrom_eq_none_iff, hsource]
  · intro names
    obtain ⟨htokens, hreports⟩ := Lexer.covers_drain (Lexer.holds_start names source)
    exact ⟨fun t ht => (htokens t ht).isPlaceOf hshort,
      fun d hd => (hreports d hd).isPlaceOf hshort⟩

/-- A string over two lines, with an escape that is reported on the second. A cursor goes back to a
copy on the first line, from where it cannot cut inside the letter of two bytes. -/
theorem positions_exact_two_lines :
    let source := "\"é\n\\q\""
    let cs := source.toList
    let c := ((Walk.start cs).run [.advanceBy 2, .save, .eatWhile (· != 'q'), .restore 0]).cursor
    cs.length < 2 ^ 32 - 1 ∧ c.pos = ⟨3, 1, 3⟩ ∧ c.pos.IsPlaceOf cs ∧ ¬ Text.IsBoundary 2 cs ∧
      ∃ d ∈ (tokenize .empty source).diagnostics,
        d.span = ⟨4, 6, 2, 1⟩ ∧ d.span.first.IsPlaceOf cs := by
  intro source cs c
  have hshort : cs.length < 2 ^ 32 - 1 := by decide +kernel
  obtain ⟨hwalk, hspans⟩ := positions_exact source hshort
  obtain ⟨-, hplace, -, hcut, -⟩ :=
    hwalk [.advanceBy 2, .save, .eatWhile (· != 'q'), .restore 0]
  have hpos : c.pos = ⟨3, 1, 3⟩ := by decide +kernel
  have hinside : ¬ Text.IsBoundary 2 cs := by
    rcases (hcut 2).mp (by decide +kernel) with hpast | hinside
    · exact absurd hpast (by decide +kernel)
    · exact hinside
  have hreport : ∃ d ∈ (tokenize .empty source).diagnostics, d.span = ⟨4, 6, 2, 1⟩ := by
    decide +kernel
  obtain ⟨d, hd, hspan⟩ := hreport
  exact ⟨hshort, hpos, hplace, hinside, d, hd, hspan, (hspans .empty).2 d hd⟩

end Lexis
