import Lexis.Proofs.Parts
import Lexis.Proofs.Progress
import Lexis.Proofs.Spelling

/-!
# Calls in any order

The operations of a lexer can be called in any order. A scanner then runs on whatever the cursor
stands on, and the place where the token began may be **left over from an earlier call**. Nothing
goes wrong: `Lexer.Holds` says that this place lies behind the cursor in the same source, and every
operation keeps it so (`Lexer.sound_call`), whatever it finds ahead.

All that a call does is said once, in `Step.Sound` and `Token.Closes`: it passes a text, what it
reports covers parts of the source, and the token that it returns reaches from where the current
token began to the cursor. A `Session` is a lexer with the log that it reports to; what one call
keeps, every sequence of calls keeps (`Session.Sound.run`).
-/

namespace Lexis

/-! ### The current token -/

/-- A part of the text ahead of a cursor is a part of its source. -/
private theorem Cursor.covers_ahead {c : Cursor} {s t u : List Char} (h : c.ahead = s ++ (t ++ u)) :
    (Span.between (c.pos.advance s) (c.pos.advance (s ++ t))).Covers c.source := by
  refine ⟨c.behind.reverse ++ s, t, u, ?_, ?_⟩
  · rw [Cursor.source, h, List.append_assoc]
  · rw [c.located, Position.advance_after, Position.advance_after, List.append_assoc]

/-- The text in front of the current token is `front`, and that from its beginning to the cursor is
`pending`. -/
structure Lexer.Holds (l : Lexer) (front pending : List Char) : Prop where
  began : l.began = Position.after front
  behind : l.cursor.behind.reverse = front ++ pending

namespace Lexer

variable {l m : Lexer} {front pending : List Char}

/-- In front of a source no token has begun, and nothing is pending. -/
theorem holds_start (names : Namespaces) (source : String) : (start names source).Holds [] [] :=
  ⟨rfl, rfl⟩

namespace Holds

/-- The text that is passed, the pending text and the text ahead are the source. -/
theorem source (h : l.Holds front pending) :
    front ++ (pending ++ l.cursor.ahead) = l.cursor.source := by
  rw [Cursor.source, h.behind, List.append_assoc]

/-- The text of the current token can be cut out of the source, so `Lexer.pending` never falls back
to its default. -/
theorem sliceFrom (h : l.Holds front pending) :
    l.cursor.sliceFrom l.began.offset = some pending := by
  refine Cursor.sliceFrom_eq_some_iff.mpr ⟨front, h.behind.symm, ?_⟩
  rw [h.began, Position.offset_after]

private theorem pending_eq (h : l.Holds front pending) : l.pending = pending := by
  rw [Lexer.pending, h.sliceFrom, Option.getD_some]

/-- What is passed belongs to the current token. -/
theorem passes (h : l.Holds front pending) {text : List Char} (hbegan : m.began = l.began)
    (hpass : l.cursor.Passes text m.cursor) : m.Holds front (pending ++ text) := by
  refine ⟨hbegan.trans h.began, ?_⟩
  rw [hpass.behind, List.reverse_append, List.reverse_reverse, h.behind, List.append_assoc]

/-- Where a token begins, nothing is pending. -/
theorem begin (h : l.Holds front pending) : l.begin.Holds (front ++ pending) [] := by
  refine ⟨?_, by rw [List.append_nil]; exact h.behind⟩
  rw [← h.behind]
  exact l.cursor.located

/-- The current token covers a part of the source. -/
theorem covers (h : l.Holds front pending) :
    (Span.between l.began l.cursor.pos).Covers l.cursor.source := by
  refine ⟨front, pending, l.cursor.ahead, h.source, ?_⟩
  rw [h.began, l.cursor.located, h.behind]

/-- The literal of a token that has not been decoded is what the token covers. -/
theorem snippet? (h : l.Holds front pending) :
    (Span.between l.began l.cursor.pos).snippet? l.cursor.source = .ok l.pending := by
  have hslice := Text.slice_append front pending l.cursor.ahead
  rw [h.source] at hslice
  simp only [Span.snippet?, Span.between, l.cursor.offset_pos, h.behind, h.began,
    Position.offset_after, hslice, h.pending_eq]

end Holds

end Lexer

/-! ### What an operation does -/

/-- What an operation on the lexer `l` may do: it passes a text ahead, the place where the token
began stays behind the cursor, and what it reports covers parts of the source. -/
structure Step.Sound {α : Type} (l : Lexer) (s : Step α) : Prop where
  passes : ∃ text, l.cursor.Passes text s.lexer.cursor
  holds : ∃ front pending, s.lexer.Holds front pending
  reports : ∀ d ∈ s.diagnostics, d.span.Covers l.cursor.source

/-- The token reaches from where the current token began to the cursor, and its literal is the text
in between, unless it is decoded, stripped of its marks, or empty at the end of the input. -/
structure Token.Closes (t : Token) (l : Lexer) : Prop where
  span : t.span = Span.between l.began l.cursor.pos
  literal : t.kind ∉ [.string, .command, .eof] → t.literal.toList = l.pending

namespace Lexer

variable {l : Lexer} {front pending : List Char}

/-- A gap is passed as part of the current token, and its report covers a comment of the source. -/
private theorem sound_pass (h : l.Holds front pending) {gap : Gap}
    (hgap : gap.text ++ gap.rest = l.cursor.ahead) : (l.pass gap).Sound l := by
  have hpass : l.cursor.Passes gap.text (l.pass gap).lexer.cursor :=
    Cursor.passes_advanceBy hgap.symm
  refine ⟨⟨_, hpass⟩, ⟨_, _, h.passes rfl hpass⟩, fun d hd => ?_⟩
  rw [diagnostics_pass hgap.symm, Gap.diagnostics] at hd
  obtain ⟨skip, -, rfl⟩ := Option.map_eq_some_iff.mp (Option.mem_toList.mp hd)
  -- an open comment reaches from its opener to the end of the gap
  have hahead : l.cursor.ahead = gap.text.take skip ++ (gap.text.drop skip ++ gap.rest) := by
    rw [← List.append_assoc, List.take_append_drop, hgap]
  have hcovers := Cursor.covers_ahead hahead
  rwa [List.take_append_drop] at hcovers

/-- The prologue is passed as part of the current token. It holds no comment, so nothing is
reported. -/
private theorem sound_openSource (h : l.Holds front pending) : l.openSource.Sound l := by
  obtain ⟨text, hpass⟩ := passes_openSource l
  have hbegan : l.openSource.lexer.began = l.began := by
    unfold openSource
    split <;> rfl
  have hreports : l.openSource.diagnostics = [] := by
    unfold openSource
    split <;> rfl
  refine ⟨⟨text, hpass⟩, ⟨_, _, h.passes hbegan hpass⟩, fun d hd => ?_⟩
  rw [hreports] at hd
  cases hd

/-- Trivia are passed as part of the current token. -/
private theorem sound_skip (h : l.Holds front pending) : l.skip.Sound l := by
  obtain ⟨⟨s, hs⟩, ⟨_, _, hopen⟩, -⟩ := sound_openSource h
  obtain ⟨⟨t, ht⟩, hholds, hreports⟩ :=
    sound_pass hopen (Trivia.scan_append l.openSource.lexer.cursor.ahead)
  rw [hs.source] at hreports
  exact ⟨⟨s ++ t, hs.trans ht⟩, hholds, hreports⟩

/-- A flaw inside a lexeme is reported inside the source, wherever the current token began. The
flaws that are about the whole token have its span. -/
private theorem covers_flaw {x : Lexeme} {f : Flaw} {token : Span}
    (happ : x.text ++ x.rest = l.cursor.ahead) (hf : f.Inside x.text)
    (htoken : token.Covers l.cursor.source) :
    (f.diagnostic token l.cursor.pos x.text).span.Covers l.cursor.source := by
  cases f with
  | unexpected | unterminatedString | noDigits | unterminatedCommand => exact htoken
  | unknownEscape skip c =>
    obtain ⟨back, hback⟩ := hf
    have hahead : l.cursor.ahead = x.text.take skip ++ (['\\', c] ++ (back ++ x.rest)) := by
      rw [← happ]
      conv => lhs; rw [← hback]
      simp only [List.append_assoc]
    have hcovers := Cursor.covers_ahead hahead
    rwa [Position.advance_append] at hcovers

/-- **A scanner's lexeme is taken** as part of the current token, whatever was passed before. That
it was found in the text ahead is all that is asked of a scanner. -/
theorem sound_take (h : l.Holds front pending) {x : Lexeme}
    (hx : x.Found l.pending l.cursor.ahead) :
    (l.take x).Sound l ∧ (l.take x).value.Closes (l.take x).lexer := by
  have hpass : l.cursor.Passes x.text (l.take x).lexer.cursor :=
    Cursor.passes_advanceBy hx.append.symm
  have hholds : (l.take x).lexer.Holds front (pending ++ x.text) := h.passes rfl hpass
  have htoken : (l.take x).value.span.Covers l.cursor.source := by
    rw [← hpass.source]
    exact hholds.covers
  refine ⟨⟨⟨_, hpass⟩, ⟨_, _, hholds⟩, fun d hd => ?_⟩, rfl, fun hkind => ?_⟩
  · obtain ⟨f, hf, rfl⟩ := List.mem_map.mp hd
    exact covers_flaw hx.append (hx.flaws f hf) htoken
  · have hkinds : x.kind ≠ .string ∧ x.kind ≠ .command := by
      constructor <;> intro hk <;> exact hkind (by simp [take, hk])
    rw [hholds.pending_eq, ← h.pending_eq]
    exact String.toList_ofList.trans (hx.literal hkinds.1 hkinds.2)

/-- Where a token begins nothing is pending, so its lexeme is the whole token. At the end of the
input the token is empty and stands there. -/
private theorem sound_token (h : l.Holds front []) :
    l.token.Sound l ∧ l.token.value.Closes l.token.lexer := by
  rcases hahead : l.cursor.ahead with _ | ⟨c, rest⟩
  · have htoken : l.token = { value := Token.eof (Span.point l.cursor.pos), lexer := l } := by
      simp only [token, hahead]
    have hbegan : l.began = l.cursor.pos := by
      rw [h.began, l.cursor.located, h.behind, List.append_nil]
    rw [htoken]
    refine ⟨⟨⟨[], .refl _⟩, ⟨_, _, h⟩, fun d hd => by cases hd⟩, ?_, fun hkind => ?_⟩
    · rw [hbegan]
      rfl
    · exact absurd (by simp [Token.eof]) hkind
  · have htoken : l.token = l.take (Lexeme.scan l.names c rest) := by
      simp only [token, hahead]
    rw [htoken]
    refine sound_take h ?_
    rw [h.pending_eq, hahead]
    exact Lexeme.found_scan l.names c rest

/-- A call of `next` begins a token of its own and returns it, with nothing pending in front, as it
passes trivia before the token begins. -/
theorem sound_next (h : l.Holds front pending) :
    l.next.Sound l ∧ l.next.value.Closes l.next.lexer := by
  obtain ⟨⟨s, hs⟩, ⟨_, _, hskip⟩, hgap⟩ := sound_skip h
  obtain ⟨⟨⟨t, ht⟩, hholds, hfound⟩, hcloses⟩ := sound_token hskip.begin
  have hsource : l.skip.lexer.begin.cursor.source = l.cursor.source := hs.source
  rw [hsource] at hfound
  refine ⟨⟨⟨s ++ t, hs.trans ht⟩, hholds, fun d hd => ?_⟩, hcloses⟩
  rcases List.mem_append.mp hd with hd | hd
  · exact hgap d hd
  · exact hfound d hd

end Lexer

/-! ### Calls -/

/-- The operations that can be called from outside. -/
inductive Call where
  /-- The next token. -/
  | next
  /-- The next token, or nothing at the end of the input. -/
  | next?
  /-- The prologue, blanks and comments are passed. -/
  | skip
  /-- The rest of the line is passed. -/
  | skipLine
  /-- A block comment is passed. -/
  | skipBlock
  /-- A number is scanned. -/
  | number
  /-- A string is scanned. -/
  | quotation
  /-- A command is scanned. -/
  | command
  /-- A word is scanned. -/
  | word
  /-- A symbol, or one that extends it, is scanned. -/
  | symbol (s : Symbol)
deriving DecidableEq, Repr

/-- Whether the call begins a token of its own. -/
def Call.begins : Call → Bool
  | next | next? => true
  | _ => false

/-- The outcome with another value. -/
def Step.returning {α β : Type} (s : Step α) (value : β) : Step β :=
  { s with value }

private theorem Step.Sound.returning {α β : Type} {l : Lexer} {s : Step α} (h : s.Sound l)
    (value : β) : (s.returning value).Sound l :=
  ⟨h.passes, h.holds, h.reports⟩

namespace Lexer

/-- What a call does, and the token that it returns, if it returns one. -/
def call (l : Lexer) : Call → Step (Option Token)
  | .next => l.next.returning (some l.next.value)
  | .next? => l.next?
  | .skip => l.skip.returning none
  | .skipLine => l.skipLine.returning none
  | .skipBlock => l.skipBlock.returning none
  | .number => l.number.returning (some l.number.value)
  | .quotation => l.quotation.returning (some l.quotation.value)
  | .command => l.command.returning (some l.command.value)
  | .word => l.word.returning (some l.word.value)
  | .symbol s => (l.symbol s).returning (some (l.symbol s).value)

/-- Only a call that begins a token changes where the token began. So trivia that other calls pass,
and what they scan, is added to the text that is pending. -/
private theorem began_call (l : Lexer) (c : Call) :
    (l.call c).lexer.began = if c.begins then l.skip.lexer.cursor.pos else l.began := by
  have htoken : ∀ m : Lexer, m.token.lexer.began = m.began := by
    intro m
    unfold token
    split <;> rfl
  have hskip : l.skip.lexer.began = l.began := by
    unfold skip openSource
    split <;> rfl
  cases c with
  | next | next? => exact htoken l.skip.lexer.begin
  | skip => exact hskip
  | skipLine | skipBlock | number | quotation | command | word | symbol => rfl

end Lexer

private theorem Trivia.block_append (cs : List Char) : (block cs).text ++ (block cs).rest = cs := by
  unfold block
  split
  · next body rest hclosing =>
    rw [List.append_assoc, closing?_append hclosing, List.take_append_drop]
  · exact List.append_nil cs

namespace Lexer

variable {l : Lexer} {front pending : List Char}

/-- **Every call is sound**, whatever the cursor stands on and wherever the token began. A scanner
is called with the text that is pending and is sound for it. -/
theorem sound_call (h : l.Holds front pending) (c : Call) :
    (l.call c).Sound l ∧ ∀ t, (l.call c).value = some t → t.Closes (l.call c).lexer := by
  have hreturn : ∀ s : Step Token, s.Sound l ∧ s.value.Closes s.lexer →
      (s.returning (some s.value)).Sound l ∧ ∀ t, some s.value = some t → t.Closes s.lexer := by
    rintro s ⟨hsound, hcloses⟩
    exact ⟨hsound.returning _, fun t ht => Option.some.inj ht ▸ hcloses⟩
  cases c with
  | next => exact hreturn _ (sound_next h)
  | next? =>
    -- at the end of the input the token is held back
    obtain ⟨hsound, hcloses⟩ := sound_next h
    refine ⟨hsound.returning _, fun t ht => ?_⟩
    simp only [call, next?] at ht
    split_ifs at ht
    exact Option.some.inj ht ▸ hcloses
  | skip => exact ⟨(sound_skip h).returning _, nofun⟩
  | skipLine =>
    exact ⟨(sound_pass h List.takeWhile_append_dropWhile).returning _, nofun⟩
  | skipBlock => exact ⟨(sound_pass h (Trivia.block_append _)).returning _, nofun⟩
  | number => exact hreturn _ (sound_take h (Lexeme.found_number _ _))
  | quotation => exact hreturn _ (sound_take h (Lexeme.found_quotation _ _))
  | command => exact hreturn _ (sound_take h (Lexeme.found_command _ _))
  | word => exact hreturn _ (sound_take h (Lexeme.found_word _ _ _))
  | symbol s => exact hreturn _ (sound_take h (Lexeme.found_symbol _ _ s))

end Lexer

/-! ### Sessions -/

/-- A lexer at work, with what is known about its past. -/
structure Session where
  /-- The lexer. -/
  lexer : Lexer
  /-- What was reported, by this lexer and before it was set up. -/
  log : Log
  /-- The offset at which the latest call that begins a token began it, and zero before any. -/
  begun : Nat

namespace Session

/-- A session in front of a source. -/
def start (names : Namespaces) (source : String) (log : Log) : Session :=
  ⟨.start names source, log, 0⟩

/-- A call in a session. A call that begins a token begins it behind the trivia. -/
def step (s : Session) (c : Call) : Session where
  lexer := (s.lexer.call c).lexer
  log := s.log.reportAll (s.lexer.call c).diagnostics
  begun := if c.begins then s.lexer.skip.lexer.cursor.pos.offset else s.begun

/-- One call after the other. -/
def run (s : Session) (calls : List Call) : Session :=
  calls.foldl step s

/-- The session is one about the source `cs` that was started with the log `old`: what has been
reported since covers parts of the source. -/
structure Sound (cs : List Char) (old : Log) (s : Session) : Prop where
  source : s.lexer.cursor.source = cs
  holds : ∃ front pending, s.lexer.Holds front pending
  begun : s.begun = s.lexer.began.offset
  log : ∃ ds, s.log.diagnostics = old.diagnostics ++ ds ∧ ∀ d ∈ ds, d.span.Covers cs

/-- A session starts sound, with the log that it is given. -/
private theorem sound_start (names : Namespaces) (source : String) (log : Log) :
    (start names source log).Sound source.toList log where
  source := rfl
  holds := ⟨_, _, Lexer.holds_start names source⟩
  begun := rfl
  log := ⟨[], (List.append_nil _).symm, nofun⟩

variable {cs : List Char} {old : Log} {s : Session}

/-- One call keeps a session sound: what it reports is added to the log, and it moves on in the same
source. -/
theorem Sound.step (h : s.Sound cs old) (c : Call) : (s.step c).Sound cs old := by
  obtain ⟨front, pending, hholds⟩ := h.holds
  obtain ⟨⟨⟨text, hpass⟩, hafter, hreports⟩, -⟩ := Lexer.sound_call hholds c
  obtain ⟨ds, hds, hcovers⟩ := h.log
  refine ⟨hpass.source.trans h.source, hafter, ?_, ds ++ (s.lexer.call c).diagnostics, ?_, ?_⟩
  · simp only [Session.step, Lexer.began_call, h.begun]
    split_ifs <;> rfl
  · simp only [Session.step, Log.reportAll, hds, List.append_assoc]
  · intro d hd
    rcases List.mem_append.mp hd with hd | hd
    · exact hcovers d hd
    · exact h.source ▸ hreports d hd

/-- **Every sequence of calls is sound**, by induction on the calls. -/
theorem Sound.run (h : s.Sound cs old) (calls : List Call) :
    (s.run calls).Sound cs old := by
  induction calls generalizing s with
  | nil => exact h
  | cons c calls ih => exact ih (h.step c)

end Session

/-- **No sequence of calls goes wrong**, if the source is short enough for lines and columns to be
counted. Wherever a call takes the cursor, all that it has passed can be cut out again, also
together with what was pending before; the rest of the source is ahead, and line and column are
exact. The token begins behind the cursor or at it, both inside the source and between characters.
The cursor never moves back, no report is lost, and what is reported covers parts of the source. A
token that is returned reaches from where the latest call of `next` began its token to the cursor,
and its literal is the text in between, unless it is a string, a command or the end. -/
theorem calls_safe (names : Namespaces) (source : String)
    (hshort : source.toList.length < 2 ^ 32 - 1) (old : Log) (calls : List Call) (c : Call) :
    let cs := source.toList
    let now := (Session.start names source old).run calls
    let later := now.step c
    let l := now.lexer
    (∀ s d t e, l.cursor.Passes s d → d.Passes t e →
        e.sliceFrom d.pos.offset = some t ∧
          e.sliceFrom l.began.offset = some (l.pending ++ (s ++ t)) ∧
          Text.dropBytes e.pos.offset cs = some e.ahead ∧ e.pos.IsPlaceOf cs) ∧
      (∃ text, l.cursor.Passes text later.lexer.cursor) ∧
      (l.began.offset ≤ l.cursor.pos.offset ∧ l.cursor.pos.offset ≤ Text.byteLength cs ∧
        Text.IsBoundary l.began.offset cs ∧ Text.IsBoundary l.cursor.pos.offset cs) ∧
      l.cursor.pos.offset ≤ later.lexer.cursor.pos.offset ∧
      now.log.diagnostics <+: later.log.diagnostics ∧
      (∃ ds, now.log.diagnostics = old.diagnostics ++ ds ∧ ∀ d ∈ ds,
        d.span.start ≤ d.span.stop ∧
          Text.IsBoundary d.span.start cs ∧ Text.IsBoundary d.span.stop cs) ∧
      ∀ t, (l.call c).value = some t →
        t.span.start = later.begun ∧ t.span.stop = later.lexer.cursor.pos.offset ∧
          (t.kind ∉ [.string, .command, .eof] → t.span.snippet? cs = .ok t.literal.toList) := by
  intro cs now later l
  have hnow : now.Sound cs old := (Session.sound_start names source old).run calls
  have hlater : later.Sound cs old := hnow.step c
  obtain ⟨front, pending, hholds⟩ := hnow.holds
  obtain ⟨⟨⟨text, hpass⟩, ⟨front', pending', hafter⟩, -⟩, htoken⟩ := Lexer.sound_call hholds c
  obtain ⟨hle, hbegan, hpos⟩ := hholds.covers.bounds
  rw [hnow.source] at hbegan hpos
  refine ⟨fun s d t e hs ht => ?_, ⟨text, hpass⟩, ⟨hle, hpos.le, hbegan, hpos⟩, ?_,
    List.prefix_append _ _, ?_, fun t ht => ?_⟩
  · have hboth := hs.trans ht
    have hsource : e.source = cs := hboth.source.trans hnow.source
    have hheld : Lexer.Holds { l with cursor := e } front (pending ++ (s ++ t)) :=
      hholds.passes rfl hboth
    refine ⟨ht.sliceFrom, ?_, ?_, ?_⟩
    · rw [hholds.pending_eq]
      exact hheld.sliceFrom
    · rw [← hsource, e.offset_pos]
      exact Text.dropBytes_append _ _
    · rw [← hsource]
      exact e.isPlaceOf_pos (hsource ▸ hshort)
  · exact hpass.offset_le
  · obtain ⟨ds, hds, hcovers⟩ := hnow.log
    exact ⟨ds, hds, fun d hd => (hcovers d hd).bounds⟩
  · obtain ⟨hspan, hliteral⟩ := htoken t ht
    refine ⟨?_, congrArg Span.stop hspan, fun hkind => ?_⟩
    · rw [hspan, hlater.begun]
      rfl
    · rw [hspan, hliteral hkind, ← hlater.source]
      exact hafter.snippet?

/-- A word is scanned after trivia: its token still starts where the name before it began. -/
theorem calls_safe_left_over :
    let now := (Session.start .empty "a é" .empty).run [.next, .skip]
    let token : Token := ⟨.ident, "a é", ⟨0, 4, 1, 1⟩⟩
    "a é".toList.length < 2 ^ 32 - 1 ∧ (now.lexer.call .word).value = some token ∧
      token.span.start = (now.step .word).begun ∧
      token.span.snippet? "a é".toList = .ok token.literal.toList := by
  intro now token
  have hshort : "a é".toList.length < 2 ^ 32 - 1 := by decide +kernel
  have htoken : (now.lexer.call .word).value = some token := by decide +kernel
  obtain ⟨-, -, -, -, -, -, hreturned⟩ := calls_safe .empty "a é" hshort .empty [.next, .skip] .word
  obtain ⟨hstart, -, hliteral⟩ := hreturned token htoken
  exact ⟨hshort, htoken, hstart, hliteral (by decide)⟩

end Lexis
