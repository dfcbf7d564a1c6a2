import Lexis.Lexer.Stream
import Lexis.Proofs.Dispatch

/-!
# The division of a text

Reading a text divides it: a gap, a lexeme, a gap, a lexeme, …, and a last gap. `divide` gives this
division as a function of the namespaces and the text **alone**; positions are laid over its parts
afterwards (`Division.tokens`, `Division.diagnostics`).

* `drain_of_opened`: behind the prologue, a lexer does nothing but divide the text ahead of it and
  lay its own position over the parts.
* `tokenize_eq`: reading a source drops the prologue and divides the rest.

What is proved about a division therefore holds for every run of the lexer, and two runs are
compared by comparing two divisions.
-/

namespace Lexis

/-- A text divided into lexemes and the gaps around them. -/
inductive Division where
  /-- The gap before the end of the text. -/
  | ending (gap : Gap)
  /-- A gap, the lexeme behind it, and the division of what follows. -/
  | item (gap : Gap) (lexeme : Lexeme) (more : Division)

/-! ### Laying positions over the parts -/

theorem Position.offset_after (text : List Char) :
    (Position.after text).offset = Text.byteLength text := by
  simp [Position.after, Position.origin]

theorem Position.advance_after (s t : List Char) :
    (Position.after s).advance t = Position.after (s ++ t) :=
  (Position.advance_append _ _ _).symm

/-- The span of a lexeme whose text starts at a position. -/
def Lexeme.span (x : Lexeme) (p : Position) : Span :=
  Span.between p (p.advance x.text)

/-- The token of a lexeme whose text starts at a position. -/
def Lexeme.token (x : Lexeme) (p : Position) : Token :=
  ⟨x.kind, String.ofList x.literal, x.span p⟩

/-- The reports of a lexeme whose text starts at a position. -/
def Lexeme.diagnostics (x : Lexeme) (p : Position) : List Diagnostic :=
  x.flaws.map (Flaw.diagnostic (x.span p) p x.text)

/-- The report of a block comment that is not closed, from its first position to its last. -/
def Gap.report (first last : Position) : Diagnostic :=
  { level := .error
    message := "unterminated block comment"
    span := Span.between first last
    code := some Code.unterminatedComment
    helps := ["add `*/` to close the comment"] }

/-- The reports of a gap whose text starts at a position: one if it ends in an open comment. -/
def Gap.diagnostics (gap : Gap) (p : Position) : List Diagnostic :=
  (gap.unclosed.map fun skip =>
    Gap.report (p.advance (gap.text.take skip)) (p.advance gap.text)).toList

/-- A gap is reported only if it leaves a comment open. -/
theorem Gap.diagnostics_of_unclosed_eq_none {gap : Gap} (h : gap.unclosed = none) (p : Position) :
    gap.diagnostics p = [] := by
  rw [diagnostics, h]
  rfl

namespace Division

/-- The lexemes, from front to back. -/
def lexemes : Division → List Lexeme
  | ending _ => []
  | item _ x more => x :: more.lexemes

/-- The tokens of a text that starts at a position; the end of the text is the last. -/
def tokens (p : Position) : Division → List Token
  | ending gap => [Token.eof (Span.point (p.advance gap.text))]
  | item gap x more =>
    let q := p.advance gap.text
    x.token q :: more.tokens (q.advance x.text)

/-- The reports of a text that starts at a position. -/
def diagnostics (p : Position) : Division → List Diagnostic
  | ending gap => gap.diagnostics p
  | item gap x more =>
    let q := p.advance gap.text
    gap.diagnostics p ++ x.diagnostics q ++ more.diagnostics (q.advance x.text)

end Division

/-! ### Dividing -/

/-- What follows the first lexeme of a text is shorter than the text, since no lexeme is empty. This
is why dividing ends. -/
theorem length_rest_scan_lt (names : Namespaces) {cs : List Char} {c : Char} {rest : List Char}
    (h : (Trivia.scan cs).rest = c :: rest) :
    (Lexeme.scan names c rest).rest.length < cs.length := by
  have hgap := congrArg List.length (Trivia.scan_append cs)
  have hlex := congrArg List.length (Lexeme.scan_append names c rest)
  have hpos := List.length_pos_iff.mpr (Lexeme.scan_text_ne_nil names c rest)
  rw [h] at hgap
  simp only [List.length_append] at hgap hlex
  omega

/-- Divides a text. -/
def divide (names : Namespaces) (cs : List Char) : Division :=
  match _h : (Trivia.scan cs).rest with
  | [] => .ending (Trivia.scan cs)
  | c :: rest =>
    .item (Trivia.scan cs) (Lexeme.scan names c rest)
      (divide names (Lexeme.scan names c rest).rest)
termination_by cs.length
decreasing_by exact length_rest_scan_lt names _h

/-- A text that is nothing but a gap is not divided any further. -/
theorem divide_of_rest_nil (names : Namespaces) {cs : List Char}
    (h : (Trivia.scan cs).rest = []) : divide names cs = .ending (Trivia.scan cs) := by
  rw [divide]
  split
  · rfl
  · next hrest => rw [h] at hrest; cases hrest

/-- **One step of dividing**: the gap, the lexeme behind it, and the division of what follows. -/
theorem divide_of_rest_cons (names : Namespaces) {cs : List Char} {c : Char} {rest : List Char}
    (h : (Trivia.scan cs).rest = c :: rest) :
    divide names cs = .item (Trivia.scan cs) (Lexeme.scan names c rest)
      (divide names (Lexeme.scan names c rest).rest) := by
  rw [divide]
  split
  · next hrest => rw [h] at hrest; cases hrest
  · next hrest =>
    rw [h] at hrest
    cases hrest
    rfl

theorem divide_nil (names : Namespaces) : divide names [] = .ending ⟨[], [], none⟩ := by
  have hscan : Trivia.scan [] = ⟨[], [], none⟩ := Trivia.scan_of_clear trivial
  rw [divide_of_rest_nil names (by rw [hscan]), hscan]

/-- The token of a scanned lexeme is not the end token. -/
theorem Lexeme.isEof_token_scan (names : Namespaces) (c : Char) (rest : List Char) (p : Position) :
    ((Lexeme.scan names c rest).token p).isEof = false := by
  simpa [Lexeme.token, Token.isEof] using Lexeme.kind_scan_ne_eof names rest c

/-! ### A lexer divides the text ahead of it -/

/-- The cursor `d` stands behind `text`, and `c` in front of it. -/
structure Cursor.Passes (c : Cursor) (text : List Char) (d : Cursor) : Prop where
  /-- The text lies ahead of the first cursor. -/
  ahead : c.ahead = text ++ d.ahead
  /-- The text lies behind the second. -/
  behind : d.behind = text.reverse ++ c.behind

namespace Cursor

variable {c d e : Cursor} {s t : List Char}

theorem Passes.refl (c : Cursor) : c.Passes [] c := ⟨rfl, rfl⟩

theorem Passes.trans (h : c.Passes s d) (h' : d.Passes t e) : c.Passes (s ++ t) e :=
  ⟨by rw [h.ahead, h'.ahead, List.append_assoc],
    by rw [h'.behind, h.behind, List.reverse_append, List.append_assoc]⟩

theorem Passes.pos (h : c.Passes s d) : d.pos = c.pos.advance s := by
  rw [d.located, c.located, h.behind, List.reverse_append, List.reverse_reverse]
  exact Position.advance_append _ _ _

/-- The source stays what it is, however far the cursor moves in it. -/
theorem Passes.source (h : c.Passes s d) : d.source = c.source := by
  simp [Cursor.source, h.ahead, h.behind]

/-- A cursor in front of a text passes it as a whole, character by character. -/
theorem passes_advanceBy (h : c.ahead = s ++ t) : c.Passes s (c.advanceBy s.length) := by
  induction s generalizing c with
  | nil => exact .refl c
  | cons x s ih =>
    have hend : c.atEnd = false := by simp [atEnd, h]
    -- one step passes one character:
    have hstep : c.Passes [x] c.advance := by
      refine ⟨by rw [ahead_advance, h]; rfl, ?_⟩
      unfold advance
      split <;> simp_all
    have hmore : c.advance.ahead = s ++ t := by rw [ahead_advance, h]; rfl
    rw [List.length_cons, advanceBy, hend]
    exact hstep.trans (ih hmore)

theorem ahead_advanceBy_length (h : c.ahead = s ++ t) : (c.advanceBy s.length).ahead = t := by
  rw [ahead_advanceBy, h, List.drop_left]

theorem pos_advanceBy_length (h : c.ahead = s ++ t) :
    (c.advanceBy s.length).pos = c.pos.advance s :=
  (passes_advanceBy h).pos

end Cursor

namespace Lexer

variable {l : Lexer}

/-- Behind the prologue, only the gap is passed. -/
theorem skip_of_opened (h : l.opened = true) :
    l.skip = l.pass (Trivia.scan l.cursor.ahead) := by
  simp [skip, openSource, h, pass]

private theorem pos_pass {gap : Gap} (h : l.cursor.ahead = gap.text ++ gap.rest) :
    (l.pass gap).lexer.cursor.pos = l.cursor.pos.advance gap.text :=
  Cursor.pos_advanceBy_length h

theorem ahead_pass {gap : Gap} (h : l.cursor.ahead = gap.text ++ gap.rest) :
    (l.pass gap).lexer.cursor.ahead = gap.rest :=
  Cursor.ahead_advanceBy_length h

/-- The report of a gap is laid out from where the gap starts. -/
theorem diagnostics_pass {gap : Gap} (h : l.cursor.ahead = gap.text ++ gap.rest) :
    (l.pass gap).diagnostics = gap.diagnostics l.cursor.pos := by
  simp only [pass, Gap.diagnostics, Gap.report, Cursor.pos_advanceBy_length h]

/-- At the end of the text the next token is the end token; the last gap is passed, and it is
reported if its comment is open. -/
theorem next_of_rest_nil (h : l.opened = true) (hrest : (Trivia.scan l.cursor.ahead).rest = []) :
    l.next.value = Token.eof (Span.point (l.cursor.pos.advance (Trivia.scan l.cursor.ahead).text)) ∧
      l.next.diagnostics = (Trivia.scan l.cursor.ahead).diagnostics l.cursor.pos ∧
      l.next.lexer.cursor.ahead = [] := by
  have happ := (Trivia.scan_append l.cursor.ahead).symm
  have hahead := ahead_pass happ
  rw [hrest] at hahead
  have hbegin : (l.pass (Trivia.scan l.cursor.ahead)).lexer.begin.cursor.ahead = [] := hahead
  have hpos : (l.pass (Trivia.scan l.cursor.ahead)).lexer.begin.cursor.pos =
      l.cursor.pos.advance (Trivia.scan l.cursor.ahead).text := pos_pass happ
  simp only [next, skip_of_opened h, token, hbegin]
  exact ⟨by rw [hpos], by rw [List.append_nil, diagnostics_pass happ], trivial⟩

/-- Otherwise the next token is the lexeme behind the gap, and the lexer stands behind it. It is
placed where the gap ends, and the report on the gap comes first. -/
theorem next_of_rest_cons (h : l.opened = true) {c : Char} {rest : List Char}
    (hrest : (Trivia.scan l.cursor.ahead).rest = c :: rest) :
    let gap := Trivia.scan l.cursor.ahead
    let x := Lexeme.scan l.names c rest
    let q := l.cursor.pos.advance gap.text
    l.next.value = x.token q ∧
      l.next.diagnostics = gap.diagnostics l.cursor.pos ++ x.diagnostics q ∧
      l.next.lexer.cursor.ahead = x.rest ∧
      l.next.lexer.cursor.pos = q.advance x.text := by
  intro gap x q
  have happ : l.cursor.ahead = gap.text ++ gap.rest := (Trivia.scan_append l.cursor.ahead).symm
  have hahead : (l.pass gap).lexer.begin.cursor.ahead = c :: rest :=
    (ahead_pass happ).trans hrest
  have hx : (l.pass gap).lexer.begin.cursor.ahead = x.text ++ x.rest :=
    hahead.trans (Lexeme.scan_append l.names c rest).symm
  have hpos : (l.pass gap).lexer.begin.cursor.pos = q := pos_pass happ
  have hbegan : (l.pass gap).lexer.begin.began = q := hpos
  have hend := Cursor.pos_advanceBy_length hx
  rw [hpos] at hend
  have htoken : (l.pass gap).lexer.begin.token = (l.pass gap).lexer.begin.take x := by
    simp only [token, hahead]; rfl
  -- the token begins where the gap ends, so its span is that of the lexeme:
  have hspan : Span.between (l.pass gap).lexer.begin.began
      ((l.pass gap).lexer.begin.cursor.advanceBy x.text.length).pos = x.span q := by
    rw [hbegan, hend]; rfl
  simp only [next, skip_of_opened h]
  rw [htoken]
  simp only [take, hspan, hpos]
  exact ⟨rfl, by rw [diagnostics_pass happ]; rfl, Cursor.ahead_advanceBy_length hx, hend⟩

/-! The namespaces stay as they are, and the prologue is behind once a gap was passed. -/

private theorem names_skip (l : Lexer) : l.skip.lexer.names = l.names := by
  unfold skip openSource
  split <;> rfl

theorem opened_skip (l : Lexer) : l.skip.lexer.opened = true := by
  unfold skip openSource
  split
  · next h => exact h
  · rfl

private theorem names_token (l : Lexer) : l.token.lexer.names = l.names := by
  unfold token
  split <;> rfl

private theorem opened_token (l : Lexer) : l.token.lexer.opened = l.opened := by
  unfold token
  split <;> rfl

/-- No call changes the namespaces, so that one division describes all the calls. -/
theorem names_next (l : Lexer) : l.next.lexer.names = l.names :=
  (names_token _).trans (names_skip l)

/-- After one call the prologue is behind the lexer for good. -/
theorem opened_next (l : Lexer) : l.next.lexer.opened = true :=
  (opened_token _).trans (opened_skip l)

/-- The end token is the last that is taken. -/
theorem drain_of_isEof (h : l.next.value.isEof = true) :
    l.drain.value = [l.next.value] ∧ l.drain.diagnostics = l.next.diagnostics ∧
      l.drain.notices = l.next.notices := by
  rw [drain]
  simp [h]

/-- A token that is not the last is taken, and the rest is what its lexer finds. -/
theorem drain_of_not_isEof (h : l.next.value.isEof = false) :
    l.drain.value = l.next.value :: l.next.lexer.drain.value ∧
      l.drain.diagnostics = l.next.diagnostics ++ l.next.lexer.drain.diagnostics ∧
      l.drain.notices = l.next.notices ++ l.next.lexer.drain.notices := by
  rw [drain]
  simp [h]

/-- **A lexer divides the text ahead.** Behind the prologue, the tokens and reports up to the end of
the input are those of the division, laid out from the position of the lexer. -/
theorem drain_of_opened (l : Lexer) (h : l.opened = true) :
    l.drain.value = (divide l.names l.cursor.ahead).tokens l.cursor.pos ∧
      l.drain.diagnostics = (divide l.names l.cursor.ahead).diagnostics l.cursor.pos := by
  rcases hrest : (Trivia.scan l.cursor.ahead).rest with _ | ⟨c, rest⟩
  · obtain ⟨hvalue, hdiag, -⟩ := next_of_rest_nil h hrest
    obtain ⟨hv, hd, -⟩ := drain_of_isEof (l := l) (by rw [hvalue]; rfl)
    rw [divide_of_rest_nil l.names hrest, hv, hd, hvalue, hdiag]
    exact ⟨rfl, rfl⟩
  · obtain ⟨hvalue, hdiag, hahead, hpos⟩ := next_of_rest_cons h hrest
    -- one call takes the first lexeme, and the lexer behind it divides what is left:
    have heof : l.next.value.isEof = false := by
      rw [hvalue]
      exact Lexeme.isEof_token_scan _ _ _ _
    obtain ⟨hv, hd, -⟩ := drain_of_not_isEof heof
    obtain ⟨ihv, ihd⟩ := drain_of_opened l.next.lexer (opened_next l)
    rw [names_next, hahead, hpos] at ihv ihd
    rw [divide_of_rest_cons l.names hrest, hv, hd, hvalue, hdiag, ihv, ihd]
    exact ⟨rfl, rfl⟩
termination_by l.cursor.ahead.length
decreasing_by exact ahead_next_lt l heof

/-! ### The prologue -/

/-- The first token is found as if the prologue had been passed before, which the call does by
itself if it has not been done. -/
theorem next_openSource (l : Lexer) :
    l.next = { l.openSource.lexer.next with notices := l.openSource.notices } := by
  have hopened : l.openSource.lexer.opened = true := by
    unfold openSource
    split
    · next h => exact h
    · rfl
  have hskip : l.skip = { l.openSource.lexer.skip with notices := l.openSource.notices } := by
    rw [skip_of_opened hopened]
    rfl
  unfold next
  rw [hskip]

/-- **The token behind the trivia**, whether or not the prologue was passed before: the lexeme there
is the next token, and nothing else is reported. -/
theorem next_of_ahead_skip {c : Char} {rest : List Char}
    (h : l.skip.lexer.cursor.ahead = c :: rest) :
    let x := Lexeme.scan l.names c rest
    let p := l.skip.lexer.cursor.pos
    l.next.value = x.token p ∧ l.next.diagnostics = x.diagnostics p ∧
      l.next.lexer.cursor.ahead = x.rest ∧ l.next.lexer.cursor.pos = p.advance x.text := by
  intro x p
  let gap := Trivia.scan l.openSource.lexer.cursor.ahead
  have happ : l.openSource.lexer.cursor.ahead = gap.text ++ gap.rest :=
    (Trivia.scan_append _).symm
  have hrest : gap.rest = c :: rest := (ahead_pass happ).symm.trans h
  -- a comment that is not closed would reach to the end of the input:
  have hskip : l.skip.diagnostics = [] :=
    (diagnostics_pass happ).trans
      (Gap.diagnostics_of_unclosed_eq_none (Trivia.unclosed_of_rest_eq_cons hrest) _)
  have hahead : l.skip.lexer.begin.cursor.ahead = x.text ++ x.rest :=
    h.trans (Lexeme.scan_append l.names c rest).symm
  have htoken : l.skip.lexer.begin.token = l.skip.lexer.begin.take x := by
    have hbegin : l.skip.lexer.begin.cursor.ahead = c :: rest := h
    have hnames : l.skip.lexer.begin.names = l.names := names_skip l
    simp only [token, hbegin, hnames]
    rfl
  have hpos := Cursor.pos_advanceBy_length hahead
  simp only [next, htoken, hskip, List.nil_append, take, hpos]
  exact ⟨rfl, rfl, Cursor.ahead_advanceBy_length hahead, rfl⟩

/-- Passing the prologue first changes neither the tokens nor the reports, as the first call passes
it anyway. -/
theorem drain_openSource (l : Lexer) :
    l.drain.value = l.openSource.lexer.drain.value ∧
      l.drain.diagnostics = l.openSource.lexer.drain.diagnostics := by
  have hnext := next_openSource l
  have hvalue : l.next.value = l.openSource.lexer.next.value := by rw [hnext]
  have hdiag : l.next.diagnostics = l.openSource.lexer.next.diagnostics := by rw [hnext]
  have hlexer : l.next.lexer = l.openSource.lexer.next.lexer := by rw [hnext]
  rcases heof : l.next.value.isEof with _ | _
  · obtain ⟨hv, hd, -⟩ := drain_of_not_isEof heof
    obtain ⟨hv', hd', -⟩ := drain_of_not_isEof (l := l.openSource.lexer) (hvalue ▸ heof)
    rw [hv, hd, hv', hd', hvalue, hdiag, hlexer]
    exact ⟨rfl, rfl⟩
  · obtain ⟨hv, hd, -⟩ := drain_of_isEof heof
    obtain ⟨hv', hd', -⟩ := drain_of_isEof (l := l.openSource.lexer) (hvalue ▸ heof)
    rw [hv, hd, hv', hd', hvalue, hdiag]
    exact ⟨rfl, rfl⟩

end Lexer

/-- **Reading a source divides the text behind its prologue.** All that is shown about divisions is
shown about readings with this, as soon as the position behind the prologue is put in. -/
theorem tokenize_eq (names : Namespaces) (source : String) :
    let cs := source.toList
    let p := Position.after (Trivia.prologue cs).text
    (tokenize names source).tokens = (divide names (Trivia.content cs)).tokens p ∧
      (tokenize names source).diagnostics = (divide names (Trivia.content cs)).diagnostics p := by
  intro cs p
  let l := (Lexer.start names source).openSource.lexer
  have hstart : (Lexer.start names source).cursor.ahead =
      (Trivia.prologue cs).text ++ Trivia.content cs :=
    (Trivia.opens_prologue cs).1.symm
  have hahead : l.cursor.ahead = Trivia.content cs := Cursor.ahead_advanceBy_length hstart
  have hpos : l.cursor.pos = p := Cursor.pos_advanceBy_length hstart
  obtain ⟨hv, hd⟩ := Lexer.drain_openSource (Lexer.start names source)
  obtain ⟨hv', hd'⟩ := Lexer.drain_of_opened l rfl
  rw [hahead, hpos] at hv' hd'
  exact ⟨hv.trans hv', hd.trans hd'⟩

end Lexis
