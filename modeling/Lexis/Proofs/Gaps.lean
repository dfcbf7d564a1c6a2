import Lexis.Proofs.Pulling

/-!
# A gap is as long as it can be

The grammar of gaps (`Trivia.Fills`) says what trivia is in front of a given text, and many front
parts of one text can be trivia. The scanner finds **the longest** of them (`Trivia.Longest`). The
reason is that trivia in front of a text does not change how that text is scanned
(`Trivia.scan_of_fills`): whatever part is cut off as trivia, the scanner passes it and then goes on
with the rest as if it stood alone.

There is one exception. A block comment that is not closed is trivia with nothing behind it, and
what a scan of nothing would leave unreported is reported there. So a report is made iff the text is
trivia that ends in such a comment (`Trivia.LeavesOpen`), and it covers this comment
(`Trivia.leavesOpen_of_unclosed`, `Trivia.scan_of_leavesOpen`).
-/

namespace Lexis

open Lexis.CharClass

/-! ### The rule -/

namespace Trivia

/-- `text` is the longest front part of `cs` that is trivia. -/
def Longest (cs text : List Char) : Prop :=
  (∃ rest, text ++ rest = cs ∧ Fills text rest) ∧
    ∀ s t, s ++ t = cs → Fills s t → s.length ≤ text.length

/-- The text is trivia up to its end, where a block comment behind `before` is not closed. -/
def LeavesOpen (cs before : List Char) : Prop :=
  ∃ body, before ++ '/' :: '*' :: body = cs ∧ Fills before ('/' :: '*' :: body) ∧
    ¬ HasClosing body

/-! ### Trivia in front of a text -/

private theorem closing?_eq_none {cs : List Char} (h : ¬ HasClosing cs) : closing? cs = none := by
  rcases hclose : closing? cs with _ | ⟨body, rest⟩
  · rfl
  · obtain ⟨inner, rfl, -⟩ := not_hasClosing_of_closing? hclose
    refine absurd ⟨inner, rest, ?_⟩ h
    exact closing?_append hclose

/-- Behind an opener without an end, all that is left is the comment. -/
private theorem scan_unclosed {body : List Char} (h : ¬ HasClosing body) :
    scan ('/' :: '*' :: body) = ⟨'/' :: '*' :: body, [], some 0⟩ := by
  rw [scan]
  split
  · next hclose =>
    rw [closing?_eq_none h] at hclose
    cases hclose
  · rfl

/-- **Trivia in front of a text is passed**, and the text is scanned as if it stood alone. Only a
comment that is not closed makes a difference, and nothing can be behind it. -/
theorem scan_of_fills {s t : List Char} (h : Fills s t) :
    (scan (s ++ t)).rest = (scan t).rest ∧ (t ≠ [] → scan (s ++ t) = (scan t).prepend s) := by
  induction h with
  | nil rest => exact ⟨rfl, fun _ => by simp [Gap.prepend]⟩
  | @blank c text rest hc _ ih =>
    rw [List.cons_append, scan_blank_cons _ hc]
    exact ⟨ih.1, fun ht => by rw [ih.2 ht, Gap.prepend_prepend]; rfl⟩
  | @line body text rest hbody hend _ ih =>
    have htest := bne_newline hbody
    have hstop : headIs (· != '\n') (text ++ rest) = false := by
      rcases happ : text ++ rest with _ | ⟨c, more⟩
      · rfl
      · obtain rfl := hend c (by rw [happ]; rfl)
        rfl
    rw [List.cons_append, List.cons_append, List.append_assoc, scan_line_comment,
      takeWhile_append_of_headIs htest hstop, dropWhile_append_of_headIs htest hstop]
    exact ⟨ih.1, fun ht => by rw [ih.2 ht, Gap.prepend_prepend]; rfl⟩
  | @block body text rest hbody _ ih =>
    have hscan : '/' :: '*' :: (body ++ '*' :: '/' :: text) ++ rest =
        '/' :: '*' :: (body ++ '*' :: '/' :: (text ++ rest)) := by simp
    rw [hscan, scan_block_comment (closing?_of_not_hasClosing hbody _)]
    exact ⟨ih.1, fun ht => by rw [ih.2 ht, Gap.prepend_prepend]; simp⟩
  | @unclosed body hbody =>
    rw [List.append_nil, scan_unclosed hbody]
    exact ⟨by rw [scan], fun ht => absurd rfl ht⟩

/-- **The scanner finds the longest gap**: what it stops at is no blank and opens no comment, so no
longer front part is trivia. -/
theorem longest_scan (cs : List Char) : Longest cs (scan cs).text := by
  refine ⟨⟨_, scan_append cs, fills_scan cs⟩, ?_⟩
  rintro s t rfl hfills
  -- what is left is a part of what any trivia leaves
  have hwhole := congrArg List.length (scan_append (s ++ t))
  have hrest := congrArg List.length (scan_append t)
  rw [(scan_of_fills hfills).1] at hwhole
  simp only [List.length_append] at hwhole hrest
  omega

/-! ### Comments that are not closed -/

/-- A comment is left open where the scanner says, behind as many characters as it counts. By
induction along the gap, with the trivia in front put together from its parts. -/
theorem leavesOpen_of_unclosed {cs : List Char} {n : Nat} (h : (scan cs).unclosed = some n) :
    ∃ before, LeavesOpen cs before ∧ before.length = n := by
  fun_induction scan cs generalizing n with
  | case1 => cases h
  | case2 cs ih =>
    obtain ⟨m, hm, rfl⟩ := Option.map_eq_some_iff.mp h
    obtain ⟨before, ⟨body, happ, hfills, hbody⟩, rfl⟩ := ih hm
    refine ⟨'/' :: '/' :: (cs.takeWhile (· != '\n') ++ before), ⟨body, ?_, ?_, hbody⟩, ?_⟩
    · rw [List.cons_append, List.cons_append, List.append_assoc, happ,
        List.takeWhile_append_dropWhile]
    · refine .line (newline_not_mem_takeWhile cs) ?_ hfills
      rw [happ]
      exact head?_dropWhile_ne_newline cs
    · simp only [List.length_cons, List.length_append]
      omega
  | case3 cs inner rest hclose ih =>
    obtain ⟨m, hm, rfl⟩ := Option.map_eq_some_iff.mp h
    obtain ⟨before, ⟨body, happ, hfills, hbody⟩, rfl⟩ := ih hm
    obtain ⟨closed, rfl, hclosed⟩ := not_hasClosing_of_closing? hclose
    refine ⟨'/' :: '*' :: (closed ++ '*' :: '/' :: before),
      ⟨body, ?_, .block hclosed hfills, hbody⟩, ?_⟩
    · rw [← closing?_append hclose, ← happ]
      simp
    · simp only [List.length_cons, List.length_append, List.length_nil]
      omega
  | case4 cs hclose =>
    cases h
    exact ⟨[], ⟨cs, rfl, .nil _, not_hasClosing_of_closing?_eq_none hclose⟩, rfl⟩
  | case5 c cs _ _ hc ih =>
    obtain ⟨m, hm, rfl⟩ := Option.map_eq_some_iff.mp h
    obtain ⟨before, ⟨body, happ, hfills, hbody⟩, rfl⟩ := ih hm
    exact ⟨c :: before, ⟨body, by rw [List.cons_append, happ], .blank hc hfills, hbody⟩, rfl⟩
  | case6 => cases h

/-- **A comment that is left open takes all that follows** and is found behind what is in front of
it, which is passed as trivia. -/
theorem scan_of_leavesOpen {cs before : List Char} (h : LeavesOpen cs before) :
    scan cs = ⟨cs, [], some before.length⟩ := by
  obtain ⟨body, rfl, hfills, hbody⟩ := h
  rw [(scan_of_fills hfills).2 (by simp), scan_unclosed hbody, Gap.prepend]
  simp

end Trivia

/-! ### Passing gaps -/

namespace Lexer

variable {l : Lexer}

/-- Behind the prologue it is the gap ahead that is passed. -/
private theorem passes_skip_of_opened (h : l.opened = true) :
    l.cursor.Passes (Trivia.scan l.cursor.ahead).text l.skip.lexer.cursor := by
  rw [skip_of_opened h]
  exact Cursor.passes_advanceBy (Trivia.scan_append l.cursor.ahead).symm

private theorem diagnostics_skip_of_opened (h : l.opened = true) :
    l.skip.diagnostics = (Trivia.scan l.cursor.ahead).diagnostics l.cursor.pos := by
  rw [skip_of_opened h]
  exact diagnostics_pass (Trivia.scan_append l.cursor.ahead).symm

end Lexer

/-- **The longest gap is passed, and only once.** Behind the prologue, a lexer passes the longest
front part of the text ahead that is trivia. It reports a comment that is not closed, from its
opener to the end of the input, iff the gap ends in one, and nothing else. No gap starts at what is
left, so that a second call changes nothing and reports nothing. -/
theorem skip_longest (l : Lexer) (hopened : l.opened = true) :
    let cs := l.cursor.ahead
    let p := l.cursor.pos
    let behind := l.skip.lexer
    (∃ text, l.cursor.Passes text behind.cursor ∧ Trivia.Longest cs text) ∧
      (∀ before, Trivia.LeavesOpen cs before →
        behind.cursor.ahead = [] ∧ l.skip.diagnostics.map Diagnostic.problem =
          [.error Code.unterminatedComment (Span.between (p.advance before) (p.advance cs))]) ∧
      ((¬ ∃ before, Trivia.LeavesOpen cs before) → l.skip.diagnostics = []) ∧
      Trivia.Clear behind.cursor.ahead ∧
      behind.skip = { value := (), lexer := behind } := by
  intro cs p behind
  have hpasses := Lexer.passes_skip_of_opened hopened
  have hreports := Lexer.diagnostics_skip_of_opened hopened
  refine ⟨⟨_, hpasses, Trivia.longest_scan cs⟩, fun before hopen => ?_, fun hclosed => ?_,
    l.clear_ahead_skip, l.skip_skip⟩
  · have hscan := Trivia.scan_of_leavesOpen hopen
    obtain ⟨body, happ, -⟩ := hopen
    have hahead : behind.cursor.ahead = [] := by
      have hsplit := hpasses.ahead
      rw [hscan] at hsplit
      exact List.self_eq_append_right.mp hsplit
    refine ⟨hahead, ?_⟩
    rw [hreports, hscan]
    -- what is in front of the comment is as long as the scanner says
    simp only [Gap.diagnostics, Option.map_some, Option.toList_some, List.map_singleton, ← happ,
      List.take_left]
    rfl
  · rcases hunclosed : (Trivia.scan cs).unclosed with _ | n
    · rw [hreports, Gap.diagnostics_of_unclosed_eq_none hunclosed]
    · obtain ⟨before, hopen, -⟩ := Trivia.leavesOpen_of_unclosed hunclosed
      exact absurd ⟨before, hopen⟩ hclosed

/-- Behind a name stand an empty block comment, an empty line comment and its line feed, and then a
block comment whose opener and a slash are all that is left. -/
theorem skip_longest_open :
    let l := (Lexer.start .empty "a /**///\n/*/").next.lexer
    let before := " /**///\n".toList
    l.opened = true ∧ Trivia.LeavesOpen l.cursor.ahead before ∧
      l.skip.diagnostics.map Diagnostic.problem =
        [.error Code.unterminatedComment ⟨9, 12, 2, 1⟩] ∧
      l.skip.lexer.skip.diagnostics = [] := by
  intro l before
  have hopened : l.opened = true := by decide +kernel
  have hahead : l.cursor.ahead = before ++ "/*/".toList := by decide +kernel
  have hslash : ¬ Trivia.HasClosing ['/'] := by
    rw [Trivia.hasClosing_cons]
    simp [Trivia.not_hasClosing_nil]
  have hfills : Trivia.Fills before "/*/".toList := by
    have hfeed : Trivia.Fills ['\n'] ['/', '*', '/'] := .blank (by decide) (.nil _)
    have hline : Trivia.Fills ['/', '/', '\n'] ['/', '*', '/'] :=
      @Trivia.Fills.line [] _ _ (by simp) (by simp) hfeed
    exact .blank (by decide) (@Trivia.Fills.block [] _ _ Trivia.not_hasClosing_nil hline)
  have hopen : Trivia.LeavesOpen l.cursor.ahead before := ⟨['/'], hahead.symm, hfills, hslash⟩
  obtain ⟨-, hreport, -, -, hagain⟩ := skip_longest l hopened
  refine ⟨hopened, hopen, ?_, by rw [hagain]⟩
  rw [(hreport before hopen).2]
  decide +kernel

end Lexis
