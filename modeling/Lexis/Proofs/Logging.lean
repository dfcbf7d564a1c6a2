import Lexis.Proofs.Concatenation

/-!
# Reporting to a log while reading

`Lexer.next` hands back what is to be reported, and somebody else adds it to a log. Here the log is
**at hand while reading**: it is the state of every operation, and a report is added to it at the
moment when the lexer passes what is wrong. `Lexer.skipInto` reports a comment that is not closed
when it comes to the end of the input inside of it, `Lexer.bodyInto` reports an escape when it has
passed its two characters, and `Lexer.drainInto` goes on with the log that the token before has left
behind.

An operation *adds* reports (`Adds`) if its value and its reports are the same whatever the log held
before. This is a property that is put together as the operations are (`Adds.bind`); each operation
has it, with the value and the reports of the one that hands them back (`Lexer.adds_nextInto`), and
so has the loop over the tokens (`Lexer.drainInto_eq`).
-/

namespace Lexis

open Lexis.CharClass

/-! ### Operations on a log -/

namespace Log

@[simp]
theorem reportAll_nil (log : Log) : log.reportAll [] = log := by
  rw [reportAll, List.append_nil]

@[simp]
theorem reportAll_reportAll (log : Log) (ds es : List Diagnostic) :
    (log.reportAll ds).reportAll es = log.reportAll (ds ++ es) := by
  simp only [reportAll, List.append_assoc]

/-- Adds one report to the log at hand. -/
def emit (d : Diagnostic) : StateM Log Unit :=
  modify (·.report d)

end Log

/-- Whatever log it finds, the action has the value `a` and adds the reports `ds`. -/
def Adds {α : Type} (action : StateM Log α) (a : α) (ds : List Diagnostic) : Prop :=
  ∀ log, action.run log = (a, log.reportAll ds)

section Adds

variable {α β : Type} {action : StateM Log α} {f : α → StateM Log β} {a : α} {b : β}
  {ds es : List Diagnostic}

/-- An action that does nothing adds no report. -/
private theorem adds_pure (a : α) : Adds (pure a) a [] := by
  intro log
  rw [Log.reportAll_nil]
  rfl

/-- **One action after the other** adds the reports of both. -/
theorem Adds.bind (h : Adds action a ds) (hf : Adds (f a) b es) :
    Adds (action >>= f) b (ds ++ es) := by
  intro log
  have hrun : (action >>= f).run log = (f (action.run log).1).run (action.run log).2 := rfl
  rw [hrun, h log, hf, Log.reportAll_reportAll]

/-- An action whose value is only turned into another one. -/
private theorem Adds.bind_pure (h : Adds action a ds) (hf : f a = pure b) :
    Adds (action >>= f) b ds := by
  have hpure : Adds (f a) b [] := by
    rw [hf]
    exact adds_pure b
  have hboth := h.bind hpure
  rwa [List.append_nil] at hboth

private theorem adds_emit (d : Diagnostic) : Adds (Log.emit d) () [d] :=
  fun _ => rfl

/-- Reports are added one by one, in their order. -/
private theorem adds_forM (ds : List Diagnostic) : Adds (ds.forM Log.emit) () ds := by
  induction ds with
  | nil => exact adds_pure ()
  | cons d ds ih => exact (adds_emit d).bind ih

end Adds

/-! ### Reading with a log at hand -/

namespace Lexer

/-- A gap that is not empty is taken off the text ahead. -/
private theorem ahead_pass_lt {l : Lexer} {gap : Gap} (hahead : l.cursor.ahead ≠ [])
    (htext : gap.text ≠ []) :
    (l.pass gap).lexer.cursor.ahead.length < l.cursor.ahead.length := by
  have hgap := List.length_pos_iff.mpr htext
  have hlength := List.length_pos_iff.mpr hahead
  simp only [pass, Cursor.ahead_advanceBy, List.length_drop]
  omega

/-- Passes blanks and comments one by one. -/
def skipInto (l : Lexer) : StateM Log Lexer :=
  match _h : l.cursor.ahead with
  | [] => pure l
  | '/' :: '/' :: _ => skipInto l.skipLine.lexer
  | '/' :: '*' :: _ => do
    l.skipBlock.diagnostics.forM Log.emit
    skipInto l.skipBlock.lexer
  | c :: _ => if isBlank c then skipInto { l with cursor := l.cursor.advance } else pure l
termination_by l.cursor.ahead.length
decreasing_by
  · exact ahead_pass_lt (by simp [_h]) (by simp [_h, Trivia.line])
  · refine ahead_pass_lt (by simp [_h]) ?_
    rw [_h, Trivia.block]
    split <;> simp
  · simp [_h]

/-- What the escape at the cursor stands for, with `x` behind its backslash. -/
def escapeInto (c : Cursor) (x : Char) : StateM Log Char :=
  match Lexeme.escaped? x with
  | some value => return value
  | none => do
    Log.emit ((Flaw.unknownEscape 0 x).diagnostic (Span.point c.pos) c.pos [])
    return x

/-- Reads the body of a string piece by piece, for a token that began at the given place: the text
that it stands for, and the cursor behind it. -/
def bodyInto (began : Position) (c : Cursor) : StateM Log (List Char × Cursor) :=
  match _h : c.ahead with
  | [] => do
    Log.emit (Flaw.unterminatedString.diagnostic (Span.between began c.pos) c.pos [])
    return ([], c)
  | '"' :: _ => return ([], c.advance)
  | ['\\'] => bodyInto began c.advance
  | '\\' :: x :: _ => do
    let value ← escapeInto c x
    let (more, d) ← bodyInto began (c.advanceBy 2)
    return (value :: more, d)
  | x :: _ => do
    let (more, d) ← bodyInto began c.advance
    return (x :: more, d)
termination_by c.ahead.length
decreasing_by
  all_goals
    simp only [_h, Cursor.ahead_advance, Cursor.ahead_advanceBy, List.length_drop,
      List.length_cons]
    omega

/-- The token at the cursor, which stands behind all trivia. -/
def tokenInto (l : Lexer) : StateM Log (Token × Lexer) :=
  match l.cursor.ahead with
  | [] => return (Token.eof (Span.point l.cursor.pos), l)
  | '"' :: _ => do
    let (value, cursor) ← bodyInto l.began l.cursor.advance
    return (⟨.string, String.ofList value, Span.between l.began cursor.pos⟩, { l with cursor })
  | c :: rest => do
    let taken := l.take (Lexeme.scan l.names c rest)
    taken.diagnostics.forM Log.emit
    return (taken.value, taken.lexer)

/-- The next token. -/
def nextInto (l : Lexer) : StateM Log (Token × Lexer) := do
  let behind ← l.openSource.lexer.skipInto
  behind.begin.tokenInto

end Lexer

/-! ### Trivia -/

namespace Cursor

/-- At the end of the text a cursor moves no further. -/
private theorem advanceBy_of_atEnd {c : Cursor} (h : c.atEnd = true) (n : Nat) :
    c.advanceBy n = c := by
  cases n with
  | zero => rfl
  | succ n => rw [advanceBy, if_pos h]

/-- A cursor can move in portions. -/
private theorem advanceBy_add (m n : Nat) (c : Cursor) :
    c.advanceBy (m + n) = (c.advanceBy m).advanceBy n := by
  induction m generalizing c with
  | zero => rw [Nat.zero_add]; rfl
  | succ m ih =>
    rw [Nat.succ_add, advanceBy, advanceBy]
    split
    · next h => rw [advanceBy_of_atEnd h]
    · exact ih c.advance

private theorem advanceBy_one (c : Cursor) : c.advanceBy 1 = c.advance := by
  rw [advanceBy]
  split
  · next h =>
    have hahead : c.ahead = [] := List.isEmpty_iff.mp h
    unfold advance
    split
    · rfl
    · next hcons => rw [hahead] at hcons; cases hcons
  · rfl

end Cursor

namespace Lexer

/-- The lexer behind a text that lies ahead. -/
def beyond (l : Lexer) (text : List Char) : Lexer :=
  { l with cursor := l.cursor.advanceBy text.length }

private theorem beyond_append (l : Lexer) (s t : List Char) :
    l.beyond (s ++ t) = (l.beyond s).beyond t := by
  simp only [beyond, List.length_append, Cursor.advanceBy_add]

/-- `action` does what passing the trivia ahead does. -/
def Skips (l : Lexer) (action : StateM Log Lexer) : Prop :=
  let gap := Trivia.scan l.cursor.ahead
  Adds action (l.beyond gap.text) (gap.diagnostics l.cursor.pos)

/-- Trivia can be passed one after the other: what is left is skipped from there, and the reports
add up. -/
private theorem Skips.of_prepend {l : Lexer} {action : StateM Log Lexer} {text cs : List Char}
    (happ : l.cursor.ahead = text ++ cs)
    (hscan : Trivia.scan l.cursor.ahead = (Trivia.scan cs).prepend text)
    (h : (l.beyond text).Skips action) : l.Skips action := by
  have hahead : (l.beyond text).cursor.ahead = cs := Cursor.ahead_advanceBy_length happ
  have hpos : (l.beyond text).cursor.pos = l.cursor.pos.advance text :=
    Cursor.pos_advanceBy_length happ
  simp only [Skips, hahead, hpos] at h
  simp only [Skips, hscan, Gap.text_prepend, beyond_append, Gap.diagnostics_prepend]
  exact h

private theorem skips_pure {l : Lexer} (h : Trivia.Clear l.cursor.ahead) : l.Skips (pure l) := by
  rw [Skips, Trivia.scan_of_clear h]
  exact adds_pure l

/-- A comment that is not closed takes all that is ahead, and it is reported. The loop goes on
behind it, where it finds nothing. -/
private theorem Skips.of_unclosed {l : Lexer} {action : StateM Log Lexer} {cs : List Char}
    (hahead : l.cursor.ahead = '/' :: '*' :: cs) (hclose : Trivia.closing? cs = none)
    (h : l.skipBlock.lexer.Skips action) :
    l.Skips (do l.skipBlock.diagnostics.forM Log.emit; action) := by
  let gap : Gap := ⟨l.cursor.ahead, [], some 0⟩
  have hscan : Trivia.scan l.cursor.ahead = gap := by
    rw [hahead, Trivia.scan]
    split <;> simp_all [gap]
  have hblock : Trivia.block l.cursor.ahead = gap := by
    simp [Trivia.block, hahead, hclose, gap]
  have happ : l.cursor.ahead = gap.text ++ gap.rest := (List.append_nil _).symm
  have hlexer : l.skipBlock.lexer = l.beyond gap.text := by
    rw [skipBlock, hblock]
    rfl
  have hreports : l.skipBlock.diagnostics = gap.diagnostics l.cursor.pos := by
    rw [skipBlock, hblock]
    exact diagnostics_pass happ
  -- nothing is left for `action` to pass
  have hend : Adds action (l.beyond gap.text) [] := by
    have hnil : (l.beyond gap.text).cursor.ahead = [] := Cursor.ahead_advanceBy_length happ
    have hempty : Trivia.scan [] = ⟨[], [], none⟩ := Trivia.scan_of_clear trivial
    rw [hlexer, Skips, hnil, hempty] at h
    exact h
  have hboth := (adds_forM l.skipBlock.diagnostics).bind (f := fun _ => action) hend
  rw [List.append_nil] at hboth
  rw [Skips, hscan, ← hreports]
  exact hboth

/-- **The loop over blanks and comments** reports a comment that is not closed, and nothing else. By
induction on its turns, each of which is a step of the scanner for gaps. -/
theorem skips_skipInto (l : Lexer) : l.Skips l.skipInto := by
  fun_induction skipInto l with
  | case1 l h => exact skips_pure (by rw [h]; trivial)
  | case2 l cs h ih =>
    set text := '/' :: '/' :: cs.takeWhile (· != '\n') with htext
    have happ : l.cursor.ahead = text ++ cs.dropWhile (· != '\n') := by
      rw [h, htext, List.cons_append, List.cons_append, List.takeWhile_append_dropWhile]
    have hline : l.skipLine.lexer = l.beyond text := by
      simp [skipLine, pass, beyond, Trivia.line, h, htext]
    rw [hline] at ih ⊢
    exact ih.of_prepend happ (by rw [h, Trivia.scan_line_comment])
  | case3 l cs h ih =>
    rcases hclose : Trivia.closing? cs with _ | ⟨body, rest⟩
    · exact ih.of_unclosed h hclose
    · set text := '/' :: '*' :: body with htext
      have happ : l.cursor.ahead = text ++ rest := by
        rw [h, htext, List.cons_append, List.cons_append, Trivia.closing?_append hclose]
      have hblock : Trivia.block l.cursor.ahead = ⟨text, rest, none⟩ := by
        simp [Trivia.block, h, hclose, htext]
      have hskip : l.skipBlock = { value := (), lexer := l.beyond text } := by
        rw [skipBlock, hblock]
        rfl
      rw [hskip] at ih ⊢
      exact ih.of_prepend happ (by rw [h, Trivia.scan_block_comment hclose])
  | case4 l c cs hline hblock h hc ih =>
    have hone : { l with cursor := l.cursor.advance } = l.beyond [c] := by
      rw [beyond, List.length_singleton, Cursor.advanceBy_one]
    rw [hone] at ih ⊢
    exact ih.of_prepend h (by rw [h, Trivia.scan_blank_cons cs hc])
  | case5 l c cs hline hblock h hc =>
    refine skips_pure ?_
    rw [h]
    refine ⟨by simpa using hc, fun hslash d hd => ?_⟩
    obtain ⟨ds, rfl⟩ := List.head?_eq_some_iff.mp hd
    exact ⟨fun hd => hline ds hslash (hd ▸ rfl), fun hd => hblock ds hslash (hd ▸ rfl)⟩

end Lexer

/-! ### Strings -/

namespace Lexeme

/-- The reports of the body of a string, in a token that began at `began`. The text `front` stands
in front of the body and starts at `start`. -/
def Body.reports (began start : Position) (front : List Char) (b : Body) : List Diagnostic :=
  let text := front ++ b.text
  (pieceFlaws front.length b.pieces ++ if b.closed then [] else [Flaw.unterminatedString]).map
    (Flaw.diagnostic (Span.between began (start.advance text)) start text)

/-- A piece is reported where it stands, and the rest of the body behind it. -/
private theorem Body.reports_cons (began start : Position) (front : List Char) (p : Piece)
    (b : Body) (span : Span) :
    (b.cons p).reports began start front =
      ((p.flaw? 0).map (Flaw.diagnostic span (start.advance front) [])).toList ++
        b.reports began start (front ++ p.text) := by
  simp only [reports, Body.closed_cons, Body.pieces_cons, Body.text_cons, pieceFlaws,
    List.length_append, List.append_assoc, List.map_append]
  congr 1
  cases p with
  | plain | dangling => rfl
  | escape x =>
    simp only [Piece.flaw?]
    split
    · simp [Flaw.diagnostic]
    · rfl

end Lexeme

namespace Lexer

open Lexeme

/-- An escape is decoded, and reported if it has no meaning. -/
private theorem adds_escapeInto (c : Cursor) (x : Char) :
    Adds (escapeInto c x) ((escaped? x).getD x)
      (((Piece.escape x).flaw? 0).map (Flaw.diagnostic (Span.point c.pos) c.pos [])).toList := by
  rcases hx : escaped? x with _ | value
  · simp only [escapeInto, Piece.flaw?, hx]
    exact (adds_emit _).bind_pure rfl
  · simp only [escapeInto, Piece.flaw?, hx]
    exact adds_pure value

/-- `action` does what reading the body of a string ahead of `c` does. -/
def Reads (began start : Position) (front : List Char) (c : Cursor)
    (action : StateM Log (List Char × Cursor)) : Prop :=
  let b := body c.ahead
  Adds action (b.pieces.flatMap Piece.value, c.advanceBy b.text.length)
    (b.reports began start front)

/-- A body can be read piece after piece: the value and the report of the first piece come in front
of those of the others. -/
theorem Reads.cons {began start : Position} {front rest : List Char} {c : Cursor} {p : Piece}
    {action : StateM Log (List Char × Cursor)} {first : StateM Log Char} {v : Char}
    (hpos : c.pos = start.advance front) (hbody : body c.ahead = (body rest).cons p)
    (hfirst : Adds first v ((p.flaw? 0).map (Flaw.diagnostic (Span.point c.pos) c.pos [])).toList)
    (hvalue : p.value = [v]) (hrest : (c.advanceBy p.text.length).ahead = rest)
    (h : Reads began start (front ++ p.text) (c.advanceBy p.text.length) action) :
    Reads began start front c (do
      let value ← first
      let (more, d) ← action
      return (value :: more, d)) := by
  rw [Reads, hrest] at h
  rw [Reads, hbody, Body.text_cons, List.length_append, Cursor.advanceBy_add,
    Body.reports_cons began start front p _ (Span.point c.pos), ← hpos]
  refine hfirst.bind (h.bind_pure ?_)
  simp [Body.cons, hvalue]

/-- **The loop over the pieces of a string** reports the escapes without a meaning, and then that
the closing mark is missing. -/
theorem reads_bodyInto (began start : Position) (c : Cursor) {front : List Char}
    (hpos : c.pos = start.advance front) : Reads began start front c (bodyInto began c) := by
  have hstep : ∀ (text : List Char) {c : Cursor} {front rest : List Char},
      c.pos = start.advance front → c.ahead = text ++ rest →
      (c.advanceBy text.length).pos = start.advance (front ++ text) := by
    intro text c front rest hpos happ
    rw [Cursor.pos_advanceBy_length happ, hpos, Position.advance_append]
  fun_induction bodyInto began c generalizing front with
  | case1 c h =>
    have hreports : (body []).reports began start front =
        [Flaw.unterminatedString.diagnostic (Span.between began c.pos) c.pos []] := by
      simp [Body.reports, body, pieceFlaws, Body.text, Body.close, Flaw.diagnostic, hpos]
    rw [Reads, h, hreports]
    exact (adds_emit _).bind_pure rfl
  | case2 c rest h =>
    rw [Reads, h, ← Cursor.advanceBy_one]
    exact adds_pure _
  | case3 c h ih =>
    -- the loop goes on at the end of the input, where the string is not closed
    rw [← Cursor.advanceBy_one] at ih ⊢
    have hrest : (c.advanceBy 1).ahead = [] := Cursor.ahead_advanceBy_length (s := ['\\']) h
    have ih := ih (hstep ['\\'] hpos h)
    have hbody : body ['\\'] = (body []).cons .dangling := rfl
    rw [Reads, hrest] at ih
    rw [Reads, h, hbody, Body.text_cons, List.length_append, Cursor.advanceBy_add,
      Body.reports_cons began start front _ _ (Span.point c.pos)]
    exact ih
  | case4 c x rest h ih =>
    have hbody : body c.ahead = (body rest).cons (.escape x) := by rw [h]; rfl
    exact .cons hpos hbody (adds_escapeInto c x) rfl
      (Cursor.ahead_advanceBy_length (s := ['\\', x]) h) (ih (hstep ['\\', x] hpos h))
  | case5 c x rest hquote hlone hescape h ih =>
    have hbody : body c.ahead = (body rest).cons (.plain x) := by
      rw [h]
      exact body_plain_cons rest hquote (ne_backslash hlone hescape)
    rw [← Cursor.advanceBy_one] at ih ⊢
    exact .cons hpos hbody (adds_pure x) rfl (Cursor.ahead_advanceBy_length (s := [x]) h)
      (ih (hstep [x] hpos h))

/-! ### Tokens -/

/-- A token is found as it is without a log, and its reports are added in the same order. Only
strings need an argument, since they report while they are read. -/
private theorem adds_tokenInto (l : Lexer) :
    Adds l.tokenInto (l.token.value, l.token.lexer) l.token.diagnostics := by
  unfold tokenInto
  split
  · next h =>
    simp only [token, h]
    exact adds_pure _
  · next rest h =>
    set x := Lexeme.quotation ('"' :: rest) with hx
    have htoken : l.token = l.take x := by
      simp only [token, h, scan_quote, hx]
    have happ : l.cursor.ahead = x.text ++ x.rest := by
      rw [h, hx, quotation_append]
    -- behind the opening mark stands the body
    have hahead : l.cursor.advance.ahead = rest := by
      rw [Cursor.ahead_advance, h]
      rfl
    have hpos : l.cursor.advance.pos = l.cursor.pos.advance ['"'] := by
      rw [← Cursor.advanceBy_one]
      exact Cursor.pos_advanceBy_length (s := ['"']) h
    have hcursor : l.cursor.advance.advanceBy (body rest).text.length =
        l.cursor.advanceBy x.text.length := by
      rw [← Cursor.advanceBy_one, ← Cursor.advanceBy_add, Nat.add_comm]
      rfl
    have hreads := reads_bodyInto l.began l.cursor.pos l.cursor.advance hpos
    rw [Reads, hahead, hcursor] at hreads
    have hreports : (body rest).reports l.began l.cursor.pos ['"'] = (l.take x).diagnostics := by
      simp only [take, Cursor.pos_advanceBy_length happ]
      rfl
    rw [htoken, ← hreports]
    exact hreads.bind_pure rfl
  · next c rest hquote h =>
    simp only [token, h]
    exact (adds_forM _).bind_pure rfl

/-- **One call** reports what is to be reported, and reads what it reads without a log. The
prologue, the gap and the token report one after the other. -/
theorem adds_nextInto (l : Lexer) :
    Adds l.nextInto (l.next.value, l.next.lexer) l.next.diagnostics := by
  have hskip : l.skip.diagnostics = (Trivia.scan l.openSource.lexer.cursor.ahead).diagnostics
      l.openSource.lexer.cursor.pos := diagnostics_pass (Trivia.scan_append _).symm
  have hdiagnostics : l.next.diagnostics = l.skip.diagnostics ++
      l.skip.lexer.begin.token.diagnostics := rfl
  rw [hdiagnostics, hskip]
  exact (skips_skipInto l.openSource.lexer).bind (adds_tokenInto l.skip.lexer.begin)

/-- All tokens from here to the end of the input, with a log that each call hands on to the next. -/
def drainInto (l : Lexer) (log : Log) : List Token × Log :=
  match _h : l.nextInto.run log with
  | ((t, m), log') =>
    if _hend : t.isEof then ([t], log')
    else
      let more := drainInto m log'
      (t :: more.1, more.2)
termination_by l.cursor.ahead.length
decreasing_by
  rw [adds_nextInto l log] at _h
  cases _h
  exact ahead_next_lt l (by simpa using _hend)

/-- **The loop over the tokens** reads what it reads without a log, and adds the reports. By
induction on the text ahead, which each token shortens. -/
theorem drainInto_eq (l : Lexer) (log : Log) :
    l.drainInto log = (l.drain.value, log.reportAll l.drain.diagnostics) := by
  have hnext := adds_nextInto l log
  rw [drainInto]
  split
  next t m log' h =>
  rw [hnext] at h
  cases h
  split
  · next heof =>
    obtain ⟨hvalue, hreports, -⟩ := drain_of_isEof heof
    rw [hvalue, hreports]
  · next heof =>
    have heof : l.next.value.isEof = false := by simpa using heof
    obtain ⟨hvalue, hreports, -⟩ := drain_of_not_isEof heof
    rw [drainInto_eq l.next.lexer, hvalue, hreports, Log.reportAll_reportAll]
termination_by l.cursor.ahead.length
decreasing_by exact ahead_next_lt l heof

end Lexer

end Lexis
