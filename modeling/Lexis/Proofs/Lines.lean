import Lexis.Proofs.Dumps
import Lexis.Proofs.Parts
import Mathlib.Data.List.DropRight

/-!
# The line around a place

Positions and lines are counted by two different rules: a position counts line feeds and characters
as they are passed (`Position.step`), a text is cut into lines as a whole (`Text.lines`). The rules
agree: the line whose number is counted at a place is made of **the end of the text in front of it
and the beginning of the text behind it** (`Text.getElem?_lines`), and the column says where on this
line the place is. The only place without a line is the one behind a last line feed.

Carriage returns at the end of a line are not shown. What stands in front of any other character
stays (`Text.trimReturns_append_cons`), so such a character is found on the line of its place
(`Span.lineText?_of_append`).
-/

namespace Lexis

/-! ### Lines of a text in two parts -/

namespace Text

/-- The end of a text, behind its last line feed. -/
def lastLine (text : List Char) : List Char :=
  text.rtakeWhile (· != '\n')

/-- The last line is as long as the column says. -/
theorem length_lastLine (text : List Char) : (lastLine text).length = lastWidth text := by
  rw [lastLine, List.rtakeWhile, List.length_reverse, lastWidth]

private theorem lastLine_of_not_mem {text : List Char} (h : '\n' ∉ text) : lastLine text = text :=
  List.rtakeWhile_eq_self_iff.mpr (Trivia.bne_newline h)

/-- The last line stands behind the last line feed. -/
private theorem lastLine_append_newline (before : List Char) {last : List Char} (h : '\n' ∉ last) :
    lastLine (before ++ '\n' :: last) = last := by
  have hall : ∀ c ∈ last.reverse, (c != '\n') = true :=
    Trivia.bne_newline (mt List.mem_reverse.mp h)
  rw [lastLine, List.rtakeWhile, List.reverse_append, List.reverse_cons, List.append_assoc,
    List.takeWhile_append_of_pos hall]
  simp

/-- A text with a line feed is cut at its last one. -/
private theorem exists_append_newline {text : List Char} (h : '\n' ∈ text) :
    ∃ before last, text = before ++ '\n' :: last ∧ '\n' ∉ last := by
  obtain ⟨s, t, happ, hs⟩ := List.eq_append_cons_of_mem (List.mem_reverse.mpr h)
  refine ⟨t.reverse, s.reverse, ?_, mt List.mem_reverse.mp hs⟩
  rw [← List.reverse_reverse text, happ]
  simp

private theorem lines_cons {c : Char} {text line : List Char} {more : List (List Char)}
    (hc : c ≠ '\n') (h : lines text = line :: more) : lines (c :: text) = (c :: line) :: more := by
  rw [lines, if_neg hc, h]

/-- A text without a line feed is one line, if it is not empty: an empty text has no lines. -/
private theorem lines_of_not_mem {line : List Char} (hne : line ≠ []) (h : '\n' ∉ line) :
    lines line = [line] := by
  induction line with
  | nil => exact absurd rfl hne
  | cons c line ih =>
    obtain ⟨hc, hline⟩ := not_or.mp (mt List.mem_cons.mpr h)
    cases line with
    | nil => rw [lines, if_neg (Ne.symm hc), lines_nil]
    | cons d line => exact lines_cons (Ne.symm hc) (ih (List.cons_ne_nil d line) hline)

/-- The first line of a text lasts up to the first line feed. -/
private theorem head?_lines {text : List Char} (h : text ≠ []) :
    (lines text).head? = some (text.takeWhile (· != '\n')) := by
  by_cases hfeed : '\n' ∈ text
  · obtain ⟨line, rest, rfl, hline⟩ := List.eq_append_cons_of_mem hfeed
    rw [lines_append_newline hline, List.takeWhile_append_of_pos (Trivia.bne_newline hline)]
    simp
  · rw [lines_of_not_mem h hfeed, List.head?_cons,
      List.takeWhile_eq_self_iff.mpr (Trivia.bne_newline hfeed)]

/-- A text that ends with a line feed has a line for each of its line feeds, and no empty line
behind the last one. -/
private theorem length_lines_newline (s : List Char) :
    (lines (s ++ ['\n'])).length = s.count '\n' + 1 := by
  induction s with
  | nil => rfl
  | cons c s ih =>
    by_cases hc : c = '\n'
    · rw [hc, List.cons_append, lines_newline, List.length_cons, ih, List.count_cons_self]
    · obtain ⟨line, more, hlines⟩ := List.exists_cons_of_length_eq_add_one ih
      rw [hlines] at ih
      rw [List.cons_append, lines_cons hc hlines, List.count_cons_of_ne hc]
      exact ih

/-- **A line feed ends a line**: what follows it has lines of its own, so texts can be cut there to
find lines. -/
theorem lines_append (s t : List Char) :
    lines (s ++ '\n' :: t) = lines (s ++ ['\n']) ++ lines t := by
  induction s with
  | nil => rfl
  | cons c s ih =>
    rw [List.cons_append, List.cons_append]
    by_cases hc : c = '\n'
    · rw [hc, lines_newline, lines_newline, ih]
      rfl
    · obtain ⟨line, more, hlines⟩ := List.exists_cons_of_length_eq_add_one (length_lines_newline s)
      rw [hlines] at ih
      rw [lines_cons hc ih, lines_cons hc hlines]
      rfl

/-- **The line around a place.** Its number counts the line feeds in front of the place, and it is
made of what stands in front, behind the last of them, and of what follows up to the next. -/
theorem getElem?_lines {front back : List Char} (h : lastLine front ++ back ≠ []) :
    (lines (front ++ back))[front.count '\n']? =
      some (lastLine front ++ back.takeWhile (· != '\n')) := by
  by_cases hfeed : '\n' ∈ front
  · obtain ⟨before, last, rfl, hlast⟩ := exists_append_newline hfeed
    rw [lastLine_append_newline before hlast] at h ⊢
    -- up to the last line feed in front all lines are complete, and the next one is asked for
    have hcount : (before ++ '\n' :: last).count '\n' = (lines (before ++ ['\n'])).length := by
      rw [length_lines_newline, List.count_append, List.count_cons_self,
        List.count_eq_zero_of_not_mem hlast]
    rw [List.append_assoc, List.cons_append, lines_append, hcount,
      List.getElem?_append_right le_rfl, Nat.sub_self, ← List.head?_eq_getElem?, head?_lines h,
      List.takeWhile_append_of_pos (Trivia.bne_newline hlast)]
  · rw [lastLine_of_not_mem hfeed] at h ⊢
    rw [List.count_eq_zero_of_not_mem hfeed, ← List.head?_eq_getElem?, head?_lines h,
      List.takeWhile_append_of_pos (Trivia.bne_newline hfeed)]

/-- No line holds a line feed, as each of them ends a line. -/
private theorem newline_not_mem_of_mem_lines (text : List Char) :
    ∀ line ∈ lines text, '\n' ∉ line := by
  induction text with
  | nil => nofun
  | cons c text ih =>
    by_cases hc : c = '\n'
    · rw [hc, lines_newline]
      exact List.forall_mem_cons.mpr ⟨List.not_mem_nil, ih⟩
    · rcases hlines : lines text with _ | ⟨line, more⟩
      · rw [lines, if_neg hc, hlines]
        simpa using Ne.symm hc
      · rw [hlines, List.forall_mem_cons] at ih
        rw [lines_cons hc hlines, List.forall_mem_cons]
        exact ⟨by simpa [Ne.symm hc] using ih.1, ih.2⟩

/-! ### Carriage returns -/

/-- What is trimmed off a line stands at its end. -/
theorem trimReturns_isPrefix (line : List Char) : trimReturns line <+: line :=
  List.rdropWhile_prefix (· == '\r') line

/-- **Nothing in front of another character is trimmed.** -/
theorem trimReturns_append_cons (s : List Char) {c : Char} (h : c ≠ '\r') (t : List Char) :
    trimReturns (s ++ c :: t) = s ++ c :: trimReturns t := by
  have hc : (c == '\r') = false := by simpa using h
  have hreverse : (s ++ c :: t).reverse = t.reverse ++ c :: s.reverse := by simp
  rw [trimReturns, hreverse, List.dropWhile_append]
  split
  · next hnil => simp [trimReturns, List.isEmpty_iff.mp hnil, hc]
  · simp [trimReturns]

/-- A line that starts with another character keeps it. -/
theorem trimReturns_takeWhile_cons {c : Char} (hfeed : c ≠ '\n') (hreturn : c ≠ '\r')
    (rest : List Char) :
    trimReturns ((c :: rest).takeWhile (· != '\n')) =
      c :: trimReturns (rest.takeWhile (· != '\n')) := by
  rw [List.takeWhile_cons_of_pos (by simpa using hfeed)]
  exact trimReturns_append_cons [] hreturn _

end Text

/-! ### Lines of spans -/

namespace Span

variable {s : Span} {source : List Char}

/-- The line of a span is found by its number, which counts from one. The first line is looked up in
another way. -/
private theorem lineText?_of_getElem? {n : Nat} {line : List Char} (hnumber : s.line.toNat = n + 1)
    (h : (Text.lines source)[n]? = some line) :
    s.lineText? source = .ok (Text.trimReturns line) := by
  cases n with
  | zero =>
    have hhead : (Text.lines source).headD [] = line := by
      rw [List.headD_eq_head?_getD, List.head?_eq_getElem?, h, Option.getD_some]
    simp only [lineText?, hnumber, hhead]
  | succ n => simp only [lineText?, hnumber, h]

/-- What is shown of a line holds no line feed: it is a line, of which only the end has been
trimmed, or the empty line of an empty source. -/
theorem newline_not_mem_of_lineText? {line : List Char} (h : s.lineText? source = .ok line) :
    '\n' ∉ line := by
  have hlines := Text.newline_not_mem_of_mem_lines source
  have htrim : ∀ full : List Char, '\n' ∉ full → '\n' ∉ Text.trimReturns full :=
    fun full hfull hmem => hfull ((Text.trimReturns_isPrefix full).subset hmem)
  unfold lineText? at h
  split at h
  · cases h
  · cases h
    refine htrim _ ?_
    cases hsource : Text.lines source with
    | nil => exact List.not_mem_nil
    | cons first more => exact hlines first (by simp [hsource])
  · next i _ =>
    rcases hat : (Text.lines source)[i + 1]? with _ | full
    · simp [hat] at h
    · simp only [hat, Except.ok.injEq] at h
      exact h ▸ htrim full (hlines full (List.mem_of_getElem? hat))

/-- **The line of a place shows the character behind it**, unless this is a line feed or a carriage
return: what is in front of it on the line is counted by the column. -/
theorem lineText?_of_append {front rest : List Char} {c : Char} (hfeed : c ≠ '\n')
    (hreturn : c ≠ '\r') (hline : s.line.toNat = front.count '\n' + 1) :
    s.lineText? (front ++ c :: rest) =
      .ok (Text.lastLine front ++ Text.trimReturns ((c :: rest).takeWhile (· != '\n'))) := by
  have hne : Text.lastLine front ++ c :: rest ≠ [] := by simp
  rw [lineText?_of_getElem? hline (Text.getElem?_lines hne),
    Text.trimReturns_takeWhile_cons hfeed hreturn,
    List.takeWhile_cons_of_pos (by simpa using hfeed), Text.trimReturns_append_cons _ hreturn]

/-- **The end of a source is on a line** unless a line feed stands there. Even an empty source has a
first line. -/
theorem lineText?_end (hline : s.line.toNat = source.count '\n' + 1) :
    (∃ line, s.lineText? source = .ok line) ↔ source.getLast? ≠ some '\n' := by
  constructor
  · rintro ⟨line, hok⟩ hlast
    obtain ⟨before, rfl⟩ := List.getLast?_eq_some_iff.mp hlast
    rw [List.count_append, List.count_singleton_self] at hline
    have hnone : (Text.lines (before ++ ['\n']))[before.count '\n' + 1]? = none := by
      rw [List.getElem?_eq_none_iff, Text.length_lines_newline]
    simp only [lineText?, hline, hnone] at hok
    cases hok
  · intro hlast
    rcases List.eq_nil_or_concat' source with rfl | ⟨before, c, rfl⟩
    · exact ⟨[], by simp [lineText?, hline, Text.trimReturns]⟩
    · have hc : (c != '\n') = true := by simpa using hlast
      have hne : Text.lastLine (before ++ [c]) ++ [] ≠ [] := by
        simp [Text.lastLine, hc]
      have hat := Text.getElem?_lines hne
      rw [List.append_nil] at hat
      exact ⟨_, lineText?_of_getElem? hline hat⟩

end Span

end Lexis
