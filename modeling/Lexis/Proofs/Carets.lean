import Lexis.Proofs.Rendering

/-!
# Carets past the end of a line

An excerpt shows one line, but it has a caret for each character of the span. The carets stay under
the line that is shown **iff the text of the span does** (`carets_fit_iff`): it holds no line feed,
and if it ends with a carriage return, then something else follows on the same line, since otherwise
this carriage return is not shown.

Strings, commands and comments that are not closed reach to the end of the source, over all lines
that follow, so carets can run far past the line (`carets_past_line`).
-/

namespace Lexis

namespace Text

/-- Carriage returns at the end make no difference to a trimmed text. -/
private theorem trimReturns_append_of_forall (s : List Char) {t : List Char}
    (h : ∀ c ∈ t, c = '\r') : trimReturns (s ++ t) = trimReturns s := by
  have hall : ∀ c ∈ t.reverse, (c == '\r') = true := by simpa using h
  rw [trimReturns, List.reverse_append, List.dropWhile_append_of_pos hall, trimReturns]

/-- A text is trimmed iff it ends with a carriage return. -/
private theorem length_le_length_trimReturns_iff (s : List Char) :
    s.length ≤ (trimReturns s).length ↔ s.getLast? ≠ some '\r' := by
  have hself : s.length ≤ (trimReturns s).length ↔ s.rdropWhile (· == '\r') = s :=
    ⟨fun h => (trimReturns_isPrefix s).eq_of_length_le h, fun h => (congrArg List.length h).ge⟩
  rw [hself, List.rdropWhile_eq_self_iff]
  rcases List.eq_nil_or_concat' s with rfl | ⟨t, c, rfl⟩ <;> simp

/-- **How much of a text its line shows.** All of it, iff it ends on the line and is not cut off
with the carriage returns at the end. -/
theorem length_le_length_line_iff (text back : List Char) :
    text.length ≤ (trimReturns ((text ++ back).takeWhile (· != '\n'))).length ↔
      '\n' ∉ text ∧ (text.getLast? = some '\r' →
        ∃ c ∈ back.takeWhile (· != '\n'), c ≠ '\r') := by
  by_cases hfeed : '\n' ∈ text
  · obtain ⟨line, rest, rfl, hline⟩ := List.eq_append_cons_of_mem hfeed
    refine iff_of_false ?_ fun h => h.1 hfeed
    -- the line ends inside the text, and trimming can only make it shorter
    have htake : (line ++ '\n' :: rest ++ back).takeWhile (· != '\n') = line := by
      rw [List.append_assoc, List.takeWhile_append_of_pos (Trivia.bne_newline hline)]
      simp
    have hle := (trimReturns_isPrefix line).length_le
    rw [htake, List.length_append, List.length_cons]
    omega
  · rw [List.takeWhile_append_of_pos (Trivia.bne_newline hfeed)]
    refine Iff.trans ?_ (and_iff_right hfeed).symm
    by_cases hother : ∃ c ∈ back.takeWhile (· != '\n'), c ≠ '\r'
    · refine iff_of_true ?_ fun _ => hother
      obtain ⟨c, hmem, hc⟩ := hother
      obtain ⟨s, t, happ⟩ := List.append_of_mem hmem
      rw [happ, ← List.append_assoc, trimReturns_append_cons _ hc, List.length_append,
        List.length_append]
      omega
    · -- what follows on the line is trimmed, so that the text itself is the end of the line
      have hall : ∀ c ∈ back.takeWhile (· != '\n'), c = '\r' := by
        simpa using hother
      rw [trimReturns_append_of_forall text hall, length_le_length_trimReturns_iff]
      exact ⟨fun h hlast => absurd hlast h, fun h hlast => hother (h hlast)⟩

end Text

/-- The excerpt at a span that starts with no blank: what it shows behind its indentation is what is
left of the line, without the carriage returns at its end. There is a caret for each character of
the span. -/
private theorem Diagnostic.exists_excerpt {source : List Char} {d : Diagnostic}
    (h : d.span.Visible source) (hshort : source.length < 2 ^ 32 - 1) :
    ∃ s text back, d.excerpt? source = some s ∧ d.span.snippet? source = .ok text ∧
      Text.dropBytes d.span.stop source = some back ∧
      s.indent = d.span.column.toNat - 1 ∧ s.carets = text.length ∧
      s.line.length =
        s.indent + (Text.trimReturns ((text ++ back).takeWhile (· != '\n'))).length := by
  obtain ⟨front, c, more, back, rfl, hblank, hspan⟩ := h
  have hfront : front.length < 2 ^ 32 - 1 := by
    rw [List.length_append] at hshort
    omega
  let shown := Text.trimReturns ((c :: more ++ back).takeWhile (· != '\n'))
  have hline : d.span.lineText? (front ++ (c :: more ++ back)) =
      .ok (Text.lastLine front ++ shown) := by
    rw [hspan]
    exact Span.lineText?_between hblank hfront _
  have htext : d.span.snippet? (front ++ (c :: more ++ back)) = .ok (c :: more) := by
    rw [hspan]
    exact Span.snippet?_between front (c :: more) back
  have hcolumn : d.span.column.toNat = (Text.lastLine front).length + 1 := by
    rw [hspan]
    exact Span.column_between hfront _
  refine ⟨_, c :: more, back, d.excerpt?_of_ok hline htext, htext, ?_, rfl, ?_, ?_⟩
  · rw [hspan, ← List.append_assoc]
    simp only [Span.between, Position.offset_after, Text.dropBytes_append]
  · simp only [Snippet.carets, List.length_cons]
    omega
  · simp only [Snippet.indent, hcolumn, Nat.add_sub_cancel, String.length_ofList,
      List.length_append, shown]

/-- **Carets stay under their line iff the text of the span does**, if the source is short enough
for lines and columns to be counted. Each report has an excerpt, which is indented to the column of
its span and has a caret for each character of the span. The carets reach no further than the line
that is shown iff the span holds no line feed and, where it ends with a carriage return, something
else than carriage returns follows on the line. -/
theorem carets_fit_iff (names : Namespaces) (source : String)
    (hshort : source.toList.length < 2 ^ 32 - 1) :
    let cs := source.toList
    ∀ d ∈ (tokenize names source).diagnostics,
      ∃ s text back, d.excerpt? cs = some s ∧ d.span.snippet? cs = .ok text ∧
        Text.dropBytes d.span.stop cs = some back ∧
        s.indent = d.span.column.toNat - 1 ∧ s.carets = text.length ∧
        (s.indent + s.carets ≤ s.line.length ↔
          '\n' ∉ text ∧ (text.getLast? = some '\r' →
            ∃ c ∈ back.takeWhile (· != '\n'), c ≠ '\r')) := by
  intro cs d hd
  have hvisible := (renders_of_mem_diagnostics_tokenize names source d hd).visible
  obtain ⟨s, text, back, hexcerpt, htext, hback, hindent, hcarets, hline⟩ :=
    Diagnostic.exists_excerpt hvisible hshort
  refine ⟨s, text, back, hexcerpt, htext, hback, hindent, hcarets, ?_⟩
  rw [hline, hcarets, Nat.add_le_add_iff_left, Text.length_le_length_line_iff]

/-- The second character of an escape is a carriage return, and the string ends behind it. -/
theorem carets_fit_iff_return :
    let source := "\"\\\r\""
    let d : Diagnostic :=
      { level := .warning
        message := "unknown escape sequence `\\\\r`"
        span := ⟨1, 3, 1, 2⟩
        code := some Code.unknownEscape
        notes := ["supported escapes are \\n \\t \\r \\\\ and \\\""] }
    source.toList.length < 2 ^ 32 - 1 ∧ d ∈ (tokenize .empty source).diagnostics ∧
      ∃ s, d.excerpt? source.toList = some s ∧ s.indent + s.carets ≤ s.line.length := by
  intro source d
  have hshort : source.toList.length < 2 ^ 32 - 1 := by decide +kernel
  have hd : d ∈ (tokenize .empty source).diagnostics := by decide +kernel
  obtain ⟨s, text, back, hs, htext, hback, -, -, hfit⟩ := carets_fit_iff .empty source hshort d hd
  have hpart : d.span.snippet? source.toList = .ok ['\\', '\r'] := by decide +kernel
  have hrest : Text.dropBytes d.span.stop source.toList = some ['"'] := by decide +kernel
  obtain rfl := Except.ok.inj (htext.symm.trans hpart)
  obtain rfl := Option.some.inj (hback.symm.trans hrest)
  exact ⟨hshort, hd, s, hs, hfit.mpr ⟨by decide, fun _ => ⟨'"', by decide, by decide⟩⟩⟩

/-- **Carets run past the line** of a string that is not closed, if another line follows. -/
theorem carets_past_line :
    let source := "\"a\nb"
    let d : Diagnostic :=
      { level := .error
        message := "unterminated string literal"
        span := ⟨0, 4, 1, 1⟩
        code := some Code.unterminatedString
        helps := ["add a closing `\"`"] }
    d ∈ (tokenize .empty source).diagnostics ∧
      d.render "m" source = "error[E1002]: unterminated string literal\n  --> m:1:1\n" ++
        "  1 | \"a\n    | ^^^^\n  = help: add a closing `\"`" ∧
      ∃ s, d.excerpt? source.toList = some s ∧ ¬ s.indent + s.carets ≤ s.line.length := by
  intro source d
  refine ⟨by decide +kernel, by decide +kernel, ?_⟩
  exact ⟨⟨"\"a", 1, 1, 5, none⟩, by decide +kernel, by decide +kernel⟩

end Lexis
