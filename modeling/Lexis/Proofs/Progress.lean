import Lexis.Proofs.Division

/-!
# Every loop of the lexer ends

A loop is given by one **turn**: the state behind the turn, or nothing where the loop is left. Each
turn of each loop takes at least one character, so that a loop is left after at most as many turns
as there are characters (`exits_of_measure`). The loops inside a token or a gap (`Loop`) are left
exactly where the scanners say (`Loop.exits`).

The outer loop takes token after token. A call of `Lexer.next` passes at least one character or
finds the end of the input (`Lexer.exists_passes_next`); for a name this is so only because every
character that starts a name also continues one.
-/

namespace Lexis

/-! ### Loops -/

/-- The loop with the given turn, entered at `a`, is left at `b` after `n` turns. -/
inductive Exits {α : Type} (turn : α → Option α) : Nat → α → α → Prop
  | leave {a : α} : turn a = none → Exits turn 0 a a
  | turn {n : Nat} {a b c : α} : turn a = some b → Exits turn n b c → Exits turn (n + 1) a c

section Loops

variable {α : Type} {turn : α → Option α}

/-- A loop whose turns shrink a measure is left after at most that many turns, by strong induction
on the measure. -/
private theorem exits_of_measure (μ : α → Nat) (hlt : ∀ a b, turn a = some b → μ b < μ a) (a : α) :
    ∃ n ≤ μ a, ∃ b, Exits turn n a b := by
  rcases h : turn a with _ | b
  · exact ⟨0, Nat.zero_le _, a, .leave h⟩
  · have hb := hlt a b h
    obtain ⟨n, hn, c, hc⟩ := exits_of_measure μ hlt b
    exact ⟨n + 1, by omega, c, .turn h hc⟩
termination_by μ a

/-- What no turn changes is the same where the loop is left. Below it is used with the scanner
itself: no turn changes where that will end. -/
private theorem Exits.eq_of_invariant {β : Type} {n : Nat} {a b : α} (h : Exits turn n a b)
    (f : α → β) (hf : ∀ a b, turn a = some b → f b = f a) : f a = f b := by
  induction h with
  | leave => rfl
  | turn hturn _ ih => rw [← hf _ _ hturn, ih]

/-- A loop is left where no further turn is possible. -/
private theorem Exits.turn_eq_none {n : Nat} {a b : α} (h : Exits turn n a b) : turn b = none := by
  induction h with
  | leave h => exact h
  | turn _ _ ih => exact ih

end Loops

/-! ### The loops inside a gap or a token -/

/-- The loops over the characters of a source. -/
inductive Loop where
  /-- Blanks and comments, one behind the other. -/
  | gap
  /-- The body of a block comment. -/
  | comment
  /-- Characters that pass a test: a line, digits, the characters of a name, a command. -/
  | run (test : Char → Bool)
  /-- The body of a string. -/
  | string

namespace Loop

open Lexis.CharClass

/-- One turn over blanks and comments. -/
def gapTurn : List Char → Option (List Char)
  | [] => none
  | '/' :: '/' :: cs => some (Trivia.line ('/' :: '/' :: cs)).rest
  | '/' :: '*' :: cs => some (Trivia.block ('/' :: '*' :: cs)).rest
  | c :: cs => if isBlank c then some cs else none

/-- One turn over the body of a block comment. -/
def commentTurn : List Char → Option (List Char)
  | [] => none
  | '*' :: '/' :: _ => none
  | _ :: cs => some cs

/-- One turn over characters that pass a test. -/
def runTurn (test : Char → Bool) : List Char → Option (List Char)
  | [] => none
  | c :: cs => if test c then some cs else none

/-- One turn over the body of a string. An escape takes two characters, or one at the end. -/
def stringTurn : List Char → Option (List Char)
  | [] => none
  | '"' :: _ => none
  | '\\' :: cs => some (cs.drop 1)
  | _ :: cs => some cs

/-- One turn of a loop. -/
def turn : Loop → List Char → Option (List Char)
  | gap => gapTurn
  | comment => commentTurn
  | run test => runTurn test
  | string => stringTurn

/-- The text at which the scanners say that a loop is left. -/
def exit : Loop → List Char → List Char
  | gap, cs => (Trivia.scan cs).rest
  | comment, cs =>
    match Trivia.closing? cs with
    | some (_, rest) => '*' :: '/' :: rest
    | none => []
  | run test, cs => cs.dropWhile test
  | string, cs => (Lexeme.body cs).close ++ (Lexeme.body cs).rest

/-! #### A turn takes a character and does not change where the loop is left -/

/-- A turn of a gap passes a blank or a whole comment, so there is less text ahead and the loop is
left at the same place. -/
private theorem gapTurn_some {cs ds : List Char} (h : gapTurn cs = some ds) :
    ds.length < cs.length ∧ exit gap ds = exit gap cs := by
  fun_cases gapTurn cs with
  | case1 => simp [gapTurn] at h
  | case2 cs =>
    obtain rfl : cs.dropWhile (· != '\n') = ds := by simpa [gapTurn, Trivia.line] using h
    have hlen := (List.dropWhile_sublist (· != '\n') (l := cs)).length_le
    refine ⟨by simp only [List.length_cons]; omega, ?_⟩
    simp only [exit, Trivia.scan, Gap.rest_prepend]
  | case3 cs =>
    have hblock : (Trivia.block ('/' :: '*' :: cs)).rest = ds := by simpa [gapTurn] using h
    -- a comment takes its opener at least, closed or not:
    rcases hclose : Trivia.closing? cs with _ | ⟨body, rest⟩
    · obtain rfl : [] = ds := by simpa [Trivia.block, hclose] using hblock
      refine ⟨by simp, ?_⟩
      simp only [exit, Trivia.scan]
      split <;> simp_all
    · obtain rfl : rest = ds := by simpa [Trivia.block, hclose] using hblock
      have hlen := congrArg List.length (Trivia.closing?_append hclose)
      rw [List.length_append] at hlen
      refine ⟨by simp only [List.length_cons]; omega, ?_⟩
      simp only [exit]
      rw [Trivia.scan]
      split <;> simp_all
  | case4 c cs _ _ hc =>
    obtain rfl : cs = ds := by simpa [gapTurn, hc] using h
    refine ⟨by simp, ?_⟩
    simp only [exit, Trivia.scan_blank_cons cs hc, Gap.rest_prepend]
  | case5 c cs _ _ hc => simp_all [gapTurn]

/-- The gap is left where neither a blank nor a comment follows, and no turn is made behind it. -/
private theorem exit_gap_of_gapTurn_none {cs : List Char} (h : gapTurn cs = none) :
    exit gap cs = cs := by
  have hclear : Trivia.Clear cs := by
    fun_cases gapTurn cs with
    | case1 => trivial
    | case2 cs => simp [gapTurn] at h
    | case3 cs => simp [gapTurn] at h
    | case4 c cs _ _ hc => simp_all [gapTurn]
    | case5 c cs hline hblock hc =>
      refine ⟨by simpa using hc, fun hslash d hd => ?_⟩
      obtain ⟨ds, rfl⟩ := List.head?_eq_some_iff.mp hd
      exact ⟨fun hd => hline ds hslash (hd ▸ rfl), fun hd => hblock ds hslash (hd ▸ rfl)⟩
  rw [exit, Trivia.scan_of_clear hclear]

/-- A turn inside a block comment passes one character, unless the comment is closed there. The
closing mark that is found first stays the same. -/
private theorem commentTurn_some {cs ds : List Char} (h : commentTurn cs = some ds) :
    ds.length < cs.length ∧ exit comment ds = exit comment cs := by
  fun_cases commentTurn cs with
  | case1 => simp [commentTurn] at h
  | case2 cs => simp [commentTurn] at h
  | case3 c cs hopen =>
    obtain rfl : cs = ds := by
      rw [commentTurn] at h
      · exact Option.some.inj h
      · exact hopen
    refine ⟨by simp, ?_⟩
    have hclose : Trivia.closing? (c :: cs) =
        (Trivia.closing? cs).map fun found => (c :: found.1, found.2) := by
      rw [Trivia.closing?]
      exact hopen
    simp only [exit, hclose]
    cases Trivia.closing? cs <;> rfl

private theorem exit_comment_of_commentTurn_none {cs : List Char} (h : commentTurn cs = none) :
    exit comment cs = cs := by
  fun_cases commentTurn cs with
  | case1 => rfl
  | case2 cs => rfl
  | case3 c cs hopen =>
    rw [commentTurn] at h
    · cases h
    · exact hopen

/-- A turn of a run passes one character that passes the test. -/
private theorem runTurn_some {test : Char → Bool} {cs ds : List Char}
    (h : runTurn test cs = some ds) :
    ds.length < cs.length ∧ exit (run test) ds = exit (run test) cs := by
  fun_cases runTurn test cs with
  | case1 => simp [runTurn] at h
  | case2 c cs hc =>
    obtain rfl : cs = ds := by simpa [runTurn, hc] using h
    exact ⟨by simp, by simp [exit, hc]⟩
  | case3 c cs hc => simp_all [runTurn]

private theorem exit_run_of_runTurn_none {test : Char → Bool} {cs : List Char}
    (h : runTurn test cs = none) : exit (run test) cs = cs := by
  fun_cases runTurn test cs with
  | case1 => rfl
  | case2 c cs hc => simp_all [runTurn]
  | case3 c cs hc => simp [exit, hc]

/-- A turn inside a string passes a character or a whole escape, which is two characters or one at
the end of the text. -/
private theorem stringTurn_some {cs ds : List Char} (h : stringTurn cs = some ds) :
    ds.length < cs.length ∧ exit string ds = exit string cs := by
  fun_cases stringTurn cs with
  | case1 => simp [stringTurn] at h
  | case2 cs => simp [stringTurn] at h
  | case3 cs =>
    obtain rfl : cs.drop 1 = ds := by simpa [stringTurn] using h
    refine ⟨by simp only [List.length_drop, List.length_cons]; omega, ?_⟩
    cases cs with
    | nil => rfl
    | cons c cs => rfl
  | case4 c cs hquote hslash =>
    obtain rfl : cs = ds := by
      rw [stringTurn] at h
      · exact Option.some.inj h
      · exact hquote
      · exact hslash
    refine ⟨by simp, ?_⟩
    simp only [exit, Lexeme.body_plain_cons cs hquote hslash, Lexeme.Body.cons, Lexeme.Body.close]

/-- The string is left at its closing quotation mark or at the end of the text, where the scanner
stops as well. -/
private theorem exit_string_of_stringTurn_none {cs : List Char} (h : stringTurn cs = none) :
    exit string cs = cs := by
  fun_cases stringTurn cs with
  | case1 => rfl
  | case2 cs => rfl
  | case3 cs => simp [stringTurn] at h
  | case4 c cs hquote hslash =>
    rw [stringTurn] at h
    · cases h
    · exact hquote
    · exact hslash

/-- A turn of any loop takes at least a character and does not change where the loop will be
left. -/
private theorem turn_some {loop : Loop} {cs ds : List Char} (h : loop.turn cs = some ds) :
    ds.length < cs.length ∧ loop.exit ds = loop.exit cs := by
  cases loop with
  | gap => exact gapTurn_some h
  | comment => exact commentTurn_some h
  | run test => exact runTurn_some h
  | string => exact stringTurn_some h

/-- A loop is left where it stands as soon as no turn is possible. -/
private theorem exit_of_turn_none {loop : Loop} {cs : List Char} (h : loop.turn cs = none) :
    loop.exit cs = cs := by
  cases loop with
  | gap => exact exit_gap_of_gapTurn_none h
  | comment => exact exit_comment_of_commentTurn_none h
  | run test => exact exit_run_of_runTurn_none h
  | string => exact exit_string_of_stringTurn_none h

/-- **Every loop inside a gap or a token ends**, after at most as many turns as there are
characters, and it ends where the scanners say. -/
theorem exits (loop : Loop) (cs : List Char) :
    ∃ n ≤ cs.length, Exits loop.turn n cs (loop.exit cs) := by
  obtain ⟨n, hn, ds, h⟩ :=
    exits_of_measure List.length (fun _ _ hturn => (turn_some hturn).1) cs
  -- no turn changes `exit`, and where the loop is left it is the text itself:
  have hexit : loop.exit cs = ds :=
    (h.eq_of_invariant loop.exit fun _ _ hturn => (turn_some hturn).2).trans
      (exit_of_turn_none h.turn_eq_none)
  exact ⟨n, hn, hexit ▸ h⟩

end Loop

/-! ### The loop over the tokens -/

/-- A cursor with nothing ahead stands at the end of its source. -/
private theorem Cursor.offset_of_ahead_eq_nil {c : Cursor} (h : c.ahead = []) :
    c.pos.offset = Text.byteLength c.source := by
  rw [c.located, Position.offset_after, Cursor.source, h, List.append_nil]

namespace Lexer

/-- The prologue, a gap and a lexeme are passed as texts ahead of the cursor. -/
theorem passes_openSource (l : Lexer) :
    ∃ text, l.cursor.Passes text l.openSource.lexer.cursor := by
  unfold openSource
  split
  · exact ⟨[], .refl _⟩
  · exact ⟨_, Cursor.passes_advanceBy (Trivia.opens_prologue l.cursor.ahead).1.symm⟩

/-- A gap is passed as a text ahead of the cursor, behind the prologue if that was not passed
before. -/
private theorem passes_skip (l : Lexer) : ∃ text, l.cursor.Passes text l.skip.lexer.cursor := by
  obtain ⟨s, hs⟩ := passes_openSource l
  exact ⟨_, hs.trans
    (Cursor.passes_advanceBy (Trivia.scan_append l.openSource.lexer.cursor.ahead).symm)⟩

/-- **Progress.** A call of `next` passes at least one character, or returns the end token and
leaves nothing ahead. -/
theorem exists_passes_next (l : Lexer) :
    ∃ text, l.cursor.Passes text l.next.lexer.cursor ∧
      (l.next.value.isEof = true ∧ l.next.lexer.cursor.ahead = [] ∨
        l.next.value.isEof = false ∧ text ≠ []) := by
  obtain ⟨s, hs⟩ := passes_skip l
  have hs' : l.cursor.Passes s l.skip.lexer.begin.cursor := hs
  rcases hahead : l.skip.lexer.begin.cursor.ahead with _ | ⟨c, rest⟩
  · -- nothing is ahead: the end token takes no text
    have htoken : l.skip.lexer.begin.token =
        { value := Token.eof (Span.point l.skip.lexer.begin.cursor.pos),
          lexer := l.skip.lexer.begin } := by
      simp only [token, hahead]
    refine ⟨s, ?_, .inl ?_⟩
    · simpa only [next, htoken] using hs'
    · simpa only [next, htoken] using ⟨rfl, hahead⟩
  · let x := Lexeme.scan l.skip.lexer.begin.names c rest
    have htoken : l.skip.lexer.begin.token = l.skip.lexer.begin.take x := by
      simp only [token, hahead]
      rfl
    have hx : l.skip.lexer.begin.cursor.ahead = x.text ++ x.rest :=
      hahead.trans (Lexeme.scan_append _ c rest).symm
    refine ⟨s ++ x.text, ?_, .inr ⟨?_, ?_⟩⟩
    · simp only [next, htoken]
      exact hs'.trans (Cursor.passes_advanceBy hx)
    · simp only [next, htoken]
      exact Lexeme.isEof_token_scan _ c rest Position.origin
    · simp [x, Lexeme.scan_text_ne_nil]

/-- The lexer after a number of calls of `next`. -/
def after : Nat → Lexer → Lexer
  | 0, l => l
  | k + 1, l => after k l.next.lexer

/-- No call changes the source. -/
theorem source_after (k : Nat) (l : Lexer) : (l.after k).cursor.source = l.cursor.source := by
  induction k generalizing l with
  | zero => rfl
  | succ k ih =>
    obtain ⟨text, hpass, -⟩ := exists_passes_next l
    rw [after, ih, hpass.source]

/-- One call more can be made in front of the others or behind them. -/
theorem after_succ (k : Nat) (l : Lexer) : l.after (k + 1) = (l.after k).next.lexer := by
  induction k generalizing l with
  | zero => rfl
  | succ k ih => exact ih l.next.lexer

/-- Every call passes a front part of the text ahead. -/
theorem suffix_after (k : Nat) (l : Lexer) : (l.after k).cursor.ahead <:+ l.cursor.ahead := by
  induction k with
  | zero => exact List.suffix_refl _
  | succ k ih =>
    obtain ⟨text, hpass, -⟩ := exists_passes_next (l.after k)
    rw [after_succ]
    exact .trans ⟨text, hpass.ahead.symm⟩ ih

/-- No number of calls changes the namespaces. -/
theorem names_after (k : Nat) (l : Lexer) : (l.after k).names = l.names := by
  induction k generalizing l with
  | zero => rfl
  | succ k ih => rw [after, ih, names_next]

/-- Once the prologue is behind it stays so. -/
theorem opened_after (k : Nat) {l : Lexer} (h : l.opened = true) : (l.after k).opened = true := by
  induction k generalizing l with
  | zero => exact h
  | succ k ih => exact ih (opened_next l)

/-- One turn of reading: a token is taken, unless it is the last. -/
def turn (l : Lexer) : Option Lexer :=
  if l.next.value.isEof then none else some l.next.lexer

private theorem turn_eq_none {l : Lexer} : l.turn = none ↔ l.next.value.isEof = true := by
  simp [turn]

private theorem turn_eq_some {l m : Lexer} :
    l.turn = some m ↔ l.next.value.isEof = false ∧ l.next.lexer = m := by
  simp [turn]

/-- **The loop over the tokens ends**, after at most as many turns as there are characters ahead. -/
theorem exits_turn (l : Lexer) :
    ∃ n ≤ l.cursor.ahead.length, ∃ m, Exits turn n l m := by
  refine exits_of_measure (fun l => l.cursor.ahead.length) (fun l m h => ?_) l
  obtain ⟨heof, rfl⟩ := turn_eq_some.mp h
  exact ahead_next_lt l heof

/-- The tokens are the values of the calls, and the last call is the first to find the end. By
induction on the turns of the loop. -/
theorem drain_of_exits {n : Nat} {l m : Lexer} (h : Exits turn n l m) :
    m = l.after n ∧
      l.drain.value = (List.range (n + 1)).map (fun k => (l.after k).next.value) ∧
      (∀ k < n, (l.after k).next.value.isEof = false) ∧ (l.after n).next.value.isEof = true := by
  induction h with
  | @leave l h =>
    have heof := turn_eq_none.mp h
    exact ⟨rfl, by simpa [after] using (drain_of_isEof heof).1, by simp, heof⟩
  | @turn n l b m h _ ih =>
    obtain ⟨heof, rfl⟩ := turn_eq_some.mp h
    obtain ⟨hm, hvalue, hbefore, hlast⟩ := ih
    refine ⟨hm, ?_, fun k hk => ?_, hlast⟩
    · rw [(drain_of_not_isEof heof).1, hvalue, List.range_succ_eq_map (n := n + 1)]
      simp [after]
    · cases k with
      | zero => exact heof
      | succ k => exact hbefore k (by omega)

/-- **Reading finds the end of the input last, and once**: the last token is the end token and no
other is, whatever the lexer has already passed. -/
theorem exists_drain_eq_concat (l : Lexer) :
    ∃ before last, l.drain.value = before ++ [last] ∧ last.isEof = true ∧
      ∀ t ∈ before, t.isEof = false := by
  obtain ⟨n, -, m, hexits⟩ := exits_turn l
  obtain ⟨-, hvalue, hbefore, hlast⟩ := drain_of_exits hexits
  refine ⟨(List.range n).map fun k => (l.after k).next.value, (l.after n).next.value, ?_, hlast,
    fun t ht => ?_⟩
  · rw [hvalue, List.range_succ, List.map_append]
    rfl
  · obtain ⟨k, hk, rfl⟩ := List.mem_map.mp ht
    exact hbefore k (List.mem_range.mp hk)

end Lexer

/-- **Reading moves forward and ends.** Every loop inside a gap or a token is left, and so is the
loop over the tokens, after at most as many turns as there are characters. After any number of
calls, one more call returns the end token with the cursor at the end of the source, or passes at
least one character. The tokens are therefore at most one more than the characters, and the last of
them, and no other, is the end of the input. -/
theorem tokenize_terminates (names : Namespaces) (source : String) :
    let start := Lexer.start names source
    let tokens := (tokenize names source).tokens
    (∀ (loop : Loop) (cs : List Char), ∃ n ≤ cs.length, Exits loop.turn n cs (loop.exit cs)) ∧
      (∃ n ≤ source.length, Exits Lexer.turn n start (start.after n) ∧
        tokens = (List.range (n + 1)).map fun k => (start.after k).next.value) ∧
      (∀ k, let l := start.after k
        (l.next.value.isEof = true ∧ l.next.lexer.cursor.ahead = [] ∧
            l.next.lexer.cursor.pos.offset = Text.byteLength source.toList) ∨
          (l.next.value.isEof = false ∧
            ∃ text, text ≠ [] ∧ l.cursor.Passes text l.next.lexer.cursor)) ∧
      tokens.length ≤ source.length + 1 ∧
      ∃ before last, tokens = before ++ [last] ∧ last.isEof = true ∧
        ∀ t ∈ before, t.isEof = false := by
  intro start tokens
  obtain ⟨n, hn, m, hexits⟩ := Lexer.exits_turn start
  obtain ⟨rfl, hdrain, -⟩ := Lexer.drain_of_exits hexits
  have htokens : tokens = (List.range (n + 1)).map fun k => (start.after k).next.value := hdrain
  have hlength : n ≤ source.length := by
    rwa [← String.length_toList]
  refine ⟨Loop.exits, ⟨n, hlength, hexits, htokens⟩, fun k => ?_, ?_, start.exists_drain_eq_concat⟩
  · intro l
    obtain ⟨text, hpass, ⟨heof, hahead⟩ | ⟨heof, htext⟩⟩ := l.exists_passes_next
    · refine .inl ⟨heof, hahead, ?_⟩
      rw [Cursor.offset_of_ahead_eq_nil hahead, hpass.source, Lexer.source_after]
      rfl
    · exact .inr ⟨heof, text, htext, hpass⟩
  · calc tokens.length = n + 1 := by rw [htokens]; simp
      _ ≤ source.length + 1 := by omega

end Lexis
