import Lexis.Proofs.Gaps
import Lexis.Proofs.Lines

/-!
# Rendered reports point at what they are about

A report is shown with the line that its span starts on and a row of carets below. Three facts make
the first caret stand under the character that the report is about.

* Every report of a reading, and every token but the last, starts at a character that is no blank
  (`Span.Visible`), so that the line of its place shows this character at the column of its place
  (`Span.Visible.shows`).
* No text of a report holds a line feed (`Diagnostic.Plain`), so that it takes one row
  (`Diagnostic.splitOn_render`).
* The two rows have gutters of the same width (`Diagnostic.getElem?_sourceRow`).
-/

namespace Lexis

open Lexis.CharClass

/-! ### Characters that are shown -/

private theorem CharClass.ne_of_not_isBlank {c : Char} (h : isBlank c = false) :
    c ≠ '\n' ∧ c ≠ '\r' := by
  constructor <;> rintro rfl <;> cases h

namespace Span

/-- The span starts at the character `c` of the source, and its line shows this character at its
column. -/
structure Shows (source : List Char) (s : Span) (shown : List Char) (c : Char) : Prop where
  /-- The source has the line. -/
  text : s.lineText? source = .ok shown
  /-- The span starts at the character. -/
  start : ∃ rest, Text.dropBytes s.start source = some (c :: rest)
  /-- The character stands on the line. -/
  column : shown[s.column.toNat - 1]? = some c

/-- The span is that of a part of the source whose first character is no blank. -/
def Visible (source : List Char) (s : Span) : Prop :=
  ∃ front c more back, front ++ (c :: more ++ back) = source ∧ isBlank c = false ∧
    s = between (Position.after front) (Position.after (front ++ c :: more))

theorem snippet?_between (front part back : List Char) :
    (between (Position.after front) (Position.after (front ++ part))).snippet?
      (front ++ (part ++ back)) = .ok part := by
  simp only [snippet?, between, Position.offset_after, Text.slice_append]

/-- The line of a part that starts with no blank. -/
theorem lineText?_between {front rest : List Char} {c : Char} (hblank : isBlank c = false)
    (hshort : front.length < 2 ^ 32 - 1) (q : Position) :
    (between (Position.after front) q).lineText? (front ++ c :: rest) =
      .ok (Text.lastLine front ++ Text.trimReturns ((c :: rest).takeWhile (· != '\n'))) := by
  obtain ⟨hfeed, hreturn⟩ := ne_of_not_isBlank hblank
  exact lineText?_of_append hfeed hreturn (Position.toNat_line_after hshort)

/-- The column of a place counts what stands in front of it on its line. -/
theorem column_between {front : List Char} (hshort : front.length < 2 ^ 32 - 1) (q : Position) :
    (between (Position.after front) q).column.toNat = (Text.lastLine front).length + 1 := by
  rw [Text.length_lastLine]
  exact Position.toNat_column_after hshort

variable {source : List Char} {s : Span}

/-- **What is visible is shown**: the line has the character under its column, and the span cuts out
a text that is not empty. -/
theorem Visible.shows (h : Visible source s) (hshort : source.length < 2 ^ 32 - 1) :
    ∃ line c more, s.Shows source line c ∧ s.snippet? source = .ok (c :: more) := by
  obtain ⟨front, c, more, back, rfl, hblank, rfl⟩ := h
  have hfront : front.length < 2 ^ 32 - 1 := by
    rw [List.length_append] at hshort
    omega
  refine ⟨_, c, more, ⟨lineText?_between hblank hfront _, ⟨more ++ back, ?_⟩, ?_⟩,
    snippet?_between front (c :: more) back⟩
  · simp only [between, Position.offset_after, Text.dropBytes_append, List.cons_append]
  · obtain ⟨hfeed, hreturn⟩ := ne_of_not_isBlank hblank
    rw [column_between hfront, Nat.add_sub_cancel, List.getElem?_append_right le_rfl, Nat.sub_self,
      Text.trimReturns_takeWhile_cons hfeed hreturn, List.getElem?_cons_zero]

end Span

/-! ### Texts of one line -/

private theorem Text.newline_not_mem_escapeEither (c : Char) : '\n' ∉ (escapeEither c).toList := by
  have hdigits : '\n' ∉ hexDigits c.toNat := fun hmem =>
    absurd (mem_of_mem_toDigits (by decide) (by decide) _ hmem) (by decide)
  rw [escapeEither, String.toList_ofList, escapeChar]
  by_cases hfeed : c = '\n'
  · simp [hfeed]
  · split_ifs <;> simp [hdigits, Ne.symm hfeed]

/-- A base mark without digits is spelled on one line. This is the only spelling from the source
that a message repeats as it is. -/
private theorem Lexeme.newline_not_mem_of_noDigits (names : Namespaces) {c : Char}
    {rest spelling : List Char} (h : .noDigits spelling ∈ (scan names c rest).flaws) :
    '\n' ∉ spelling := by
  have hscans := scans_scan names rest c
  generalize scan names c rest = x at h hscans
  cases hscans with
  | symbol => simp [flaws_symbol] at h
  | quotation =>
    rcases List.mem_append.mp h with hpiece | hend
    · simp [pieceFlaws_body] at hpiece
    · split at hend <;> simp at hend
  | command =>
    unfold command at h
    split at h <;> simp at h
  | number =>
    rcases number_cases [] (c :: rest) with ⟨-, hnumber⟩ | ⟨mark, digit, more, -, hdigit, hnumber⟩
    · simp [hnumber, flaws_decimal] at h
    · have hmark : mark ≠ '\n' := by
        rintro rfl
        cases hdigit
      simp only [hnumber, based] at h
      split_ifs at h with hnone
      · obtain rfl : spelling = ['0', mark] := by
          simpa [List.isEmpty_iff.mp hnone] using List.mem_singleton.mp h
        simp [Ne.symm hmark]
      · cases h
  | word => simp [flaws_word] at h
  | illegal => simp [illegal] at h

namespace Diagnostic

/-- No text of the diagnostic holds a line feed, and it has no excerpts of its own. -/
structure Plain (d : Diagnostic) : Prop where
  headline : '\n' ∉ d.headline.toList
  notes : ∀ n ∈ d.notes, '\n' ∉ n.toList
  helps : ∀ h ∈ d.helps, '\n' ∉ h.toList
  snippets : d.snippets = []

/-- A diagnostic is plain if what it says is; its level and its code are. -/
private theorem Plain.of_message {d : Diagnostic} {code : Code} (hcode : d.code = some code)
    (htext : '\n' ∉ code.text.toList) (hmessage : '\n' ∉ d.message.toList)
    (hremarks : ∀ r ∈ d.notes ++ d.helps, '\n' ∉ r.toList) (hsnippets : d.snippets = []) :
    d.Plain := by
  obtain ⟨hnotes, hhelps⟩ := List.forall_mem_append.mp hremarks
  have hlevel : '\n' ∉ d.level.text.toList := by cases d.level <;> decide
  exact ⟨by simp [Diagnostic.headline, hcode, hlevel, htext, hmessage], hnotes, hhelps, hsnippets⟩

private theorem plain_report (p q : Position) : (Gap.report p q).Plain :=
  .of_message rfl (by decide +kernel) (by simp [Gap.report]) (by simp [Gap.report]) rfl

end Diagnostic

/-- **The report of a flaw is plain**, whatever the characters of the source: they are escaped where
a message names them. -/
theorem Flaw.plain_diagnostic {f : Flaw} (h : ∀ spelling, f = .noDigits spelling → '\n' ∉ spelling)
    (token : Span) (start : Position) (text : List Char) :
    (f.diagnostic token start text).Plain := by
  cases f with
  | unexpected c =>
    refine .of_message rfl (by decide +kernel) ?_ (by simp [diagnostic]) rfl
    simp [diagnostic, Text.newline_not_mem_escapeEither]
  | unterminatedString | unterminatedCommand =>
    exact .of_message rfl (by decide +kernel) (by simp [diagnostic]) (by simp [diagnostic]) rfl
  | noDigits spelling =>
    refine .of_message rfl (by decide +kernel) ?_ (by simp [diagnostic]) rfl
    simp [diagnostic, h spelling rfl]
  | unknownEscape skip c =>
    refine .of_message rfl (by decide +kernel) ?_ (by simp [diagnostic]) rfl
    simp [diagnostic, Text.newline_not_mem_escapeEither]

/-! ### What a reading reports -/

/-- A report about the source that can be rendered: it starts at a character that is shown, and its
texts take one line each. -/
structure Diagnostic.Renders (source : List Char) (d : Diagnostic) : Prop where
  visible : d.span.Visible source
  plain : d.Plain

/-- A comment that is not closed starts with a slash, which its line shows. -/
private theorem Gap.renders_of_mem_diagnostics {behind cs : List Char} :
    ∀ d ∈ (Trivia.scan cs).diagnostics (Position.after behind), d.Renders (behind ++ cs) := by
  intro d hd
  obtain ⟨n, hn, rfl⟩ := Option.map_eq_some_iff.mp (Option.mem_toList.mp hd)
  obtain ⟨before, hopen, rfl⟩ := Trivia.leavesOpen_of_unclosed hn
  have hscan := Trivia.scan_of_leavesOpen hopen
  obtain ⟨body, rfl, -⟩ := hopen
  refine ⟨⟨behind ++ before, '/', '*' :: body, [], by simp, by decide, ?_⟩,
    Diagnostic.plain_report _ _⟩
  simp only [hscan, List.take_left, Gap.report, Position.advance_after, List.append_assoc]

namespace Lexeme

variable (names : Namespaces) (front rest : List Char) {c : Char}

/-- A lexeme that does not start with a blank starts with a character that its line shows. -/
private theorem visible_span_scan (hblank : isBlank c = false) :
    ((scan names c rest).span (Position.after front)).Visible (front ++ c :: rest) := by
  have happ := scan_append names c rest
  obtain ⟨more, htext⟩ : ∃ more, (scan names c rest).text = c :: more := by
    obtain ⟨d, more, htext⟩ := List.exists_cons_of_ne_nil (scan_text_ne_nil names c rest)
    rw [htext] at happ
    exact ⟨more, by rw [htext, (List.cons.inj happ).1]⟩
  refine ⟨front, c, more, (scan names c rest).rest, ?_, hblank, ?_⟩
  · rw [← htext, happ]
  · rw [span, htext, Position.advance_after]

/-- A flaw covers its lexeme, or it is an escape inside and starts with a backslash. Either way its
span starts with a character that its line shows. -/
private theorem renders_of_mem_diagnostics (hblank : isBlank c = false) :
    ∀ d ∈ (scan names c rest).diagnostics (Position.after front),
      d.Renders (front ++ c :: rest) := by
  intro d hd
  obtain ⟨f, hf, rfl⟩ := List.mem_map.mp hd
  have hfound := found_scan names c rest
  refine ⟨?_, Flaw.plain_diagnostic (fun spelling h => ?_) _ _ _⟩
  · have hspan := visible_span_scan names front rest hblank
    have hinside := hfound.flaws f hf
    cases f with
    | unexpected | unterminatedString | noDigits | unterminatedCommand => exact hspan
    | unknownEscape skip e =>
      obtain ⟨back, hback⟩ := hinside
      refine ⟨front ++ (scan names c rest).text.take skip, '\\', [e],
        back ++ (scan names c rest).rest, ?_, by decide, ?_⟩
      · rw [← hfound.append]
        simpa only [List.append_assoc] using
          congrArg (fun text => front ++ (text ++ (scan names c rest).rest)) hback
      · simp only [Flaw.diagnostic, Position.advance_after]
  · subst h
    exact newline_not_mem_of_noDigits names hf

end Lexeme

/-- **Every report of a division renders.** By induction on the division: a report is made in a gap
or about a lexeme. -/
theorem renders_of_mem_diagnostics_divide (names : Namespaces) (cs : List Char)
    {behind source : List Char} (h : behind ++ cs = source) :
    ∀ d ∈ (divide names cs).diagnostics (Position.after behind), d.Renders source := by
  fun_induction divide names cs generalizing behind with
  | case1 cs hrest =>
    rw [← h]
    exact Gap.renders_of_mem_diagnostics
  | case2 cs c rest hrest ih =>
    set x := Lexeme.scan names c rest with hx
    set front := behind ++ (Trivia.scan cs).text with hfront
    have hsource : front ++ c :: rest = source := by
      rw [hfront, List.append_assoc, ← hrest, Trivia.scan_append, h]
    have hmore : front ++ x.text ++ x.rest = source := by
      rw [List.append_assoc, Lexeme.scan_append, hsource]
    have hclear : Trivia.Clear (c :: rest) := hrest ▸ Trivia.clear_rest_scan cs
    simp only [Division.diagnostics, Position.advance_after, ← hfront]
    intro d hd
    rcases List.mem_append.mp hd with hd | hd
    · rcases List.mem_append.mp hd with hd | hd
      · rw [← h]
        exact Gap.renders_of_mem_diagnostics d hd
      · rw [← hsource]
        exact Lexeme.renders_of_mem_diagnostics names front rest hclear.1 d hd
    · exact ih hmore d hd

/-- Every report of a reading renders, the prologue being part of the text in front. -/
theorem renders_of_mem_diagnostics_tokenize (names : Namespaces) (source : String) :
    ∀ d ∈ (tokenize names source).diagnostics, d.Renders source.toList := by
  rw [(tokenize_eq names source).2]
  exact renders_of_mem_diagnostics_divide names _ (Trivia.opens_prologue source.toList).1

/-! ### Rows -/

namespace Diagnostic

variable (d : Diagnostic)

/-- The number of the line, in at least three columns. -/
def gutter : List Char :=
  (Nat.toDigits 10 d.span.line.toNat).leftpad 3 ' '

/-- The row with the name of the source and the place. -/
def placeRow (name : String) : List Char :=
  [' ', ' ', '-', '-', '>', ' '] ++ (name.toList ++ ':' :: (Nat.toDigits 10 d.span.line.toNat ++
    ':' :: Nat.toDigits 10 d.span.column.toNat))

/-- The row with the line of the source. -/
def sourceRow (line : List Char) : List Char :=
  d.gutter ++ ([' ', '|', ' '] ++ line)

/-- The row with the carets. -/
def caretRow (width : Nat) : List Char :=
  List.replicate d.gutter.length ' ' ++
    ([' ', '|', ' '] ++ (List.replicate (d.span.column.toNat - 1) ' ' ++ List.replicate width '^'))

/-- The rows of a diagnostic about a line, of which so many characters are marked. -/
def rows (name : String) (line : List Char) (width : Nat) : List (List Char) :=
  [d.headline.toList, d.placeRow name, d.sourceRow line, d.caretRow width] ++
    (d.notes.map fun n => "  = note: ".toList ++ n.toList) ++
    (d.helps.map fun h => "  = help: ".toList ++ h.toList)

private theorem length_rows (name : String) (line : List Char) (width : Nat) :
    (d.rows name line width).length = 4 + d.notes.length + d.helps.length := by
  simp only [rows, List.length_append, List.length_map, List.length_cons, List.length_nil]

/-- Rows are joined by putting a line feed in front of each but the first. -/
private theorem intercalate_cons_newline (r : List Char) (rs : List (List Char)) :
    ['\n'].intercalate (r :: rs) = r ++ rs.flatMap ('\n' :: ·) := by
  induction rs generalizing r with
  | nil => simp
  | cons r' rs ih => rw [List.intercalate_cons_cons, ih r']; simp

/-- The excerpt at a span that fits the source: its line, and the columns between which the carets
stand. -/
theorem excerpt?_of_ok {source line text : List Char} (hline : d.span.lineText? source = .ok line)
    (htext : d.span.snippet? source = .ok text) :
    d.excerpt? source = some ⟨String.ofList line, d.span.line.toNat, d.span.column.toNat,
      d.span.column.toNat + text.length, none⟩ := by
  simp only [excerpt?, hline, htext]

/-- The excerpt takes two rows, whose gutters are as wide as each other: the number with its blanks
on the one, blanks on the other. -/
private theorem toList_render_excerpt (line : List Char) {width : Nat} (hwidth : 0 < width) :
    let start := d.span.column.toNat
    (Snippet.render ⟨String.ofList line, d.span.line.toNat, start, start + width, none⟩).toList =
      d.sourceRow line ++ '\n' :: d.caretRow width := by
  intro start
  have hdigits : (toString d.span.line.toNat).length =
      (Nat.toDigits 10 d.span.line.toNat).length := by
    rw [Nat.toString_eq_ofList_toDigits, String.length_ofList]
  -- both gutters are as wide as the number and its blanks
  have hwide : max (Nat.toDigits 10 d.span.line.toNat).length 3 = d.gutter.length := by
    rw [gutter, List.leftpad, List.length_append, List.length_replicate]
    omega
  have hblanks : d.gutter.length - (Nat.toDigits 10 d.span.line.toNat).length =
      3 - (Nat.toDigits 10 d.span.line.toNat).length := by omega
  have hcarets : max (start + width - start) 1 = width := by omega
  simp only [Snippet.render, Snippet.gutter, Snippet.indent, Snippet.carets, Snippet.repeated,
    hdigits, hwide, hblanks, hcarets]
  simp [sourceRow, caretRow, gutter, List.leftpad, start]

/-- Each remark behind the excerpt takes a row. -/
private theorem toList_join_remarks {mark label : String} (h : mark.toList = '\n' :: label.toList)
    (texts : List String) :
    (String.join (texts.map fun t => mark ++ t)).toList =
      (texts.map fun t => label.toList ++ t.toList).flatMap ('\n' :: ·) := by
  rw [String.toList_join, List.flatMap_map, List.flatMap_map]
  simp only [String.toList_append, h, List.cons_append]

/-- **A diagnostic is rendered as its rows**, if the source has its line and its part. From here on,
what is rendered is asked of the rows one by one. -/
theorem toList_render {source : String} {line text : List Char} (hplain : d.snippets = [])
    (hline : d.span.lineText? source.toList = .ok line)
    (htext : d.span.snippet? source.toList = .ok text) (hne : text ≠ []) (name : String) :
    (d.render name source).toList = ['\n'].intercalate (d.rows name line text.length) := by
  let excerpt : Snippet := ⟨String.ofList line, d.span.line.toNat, d.span.column.toNat,
    d.span.column.toNat + text.length, none⟩
  have hexcerpt : d.excerpt? source.toList = some excerpt := d.excerpt?_of_ok hline htext
  have hmiddle : (String.join ["\n" ++ excerpt.render]).toList =
      '\n' :: (d.sourceRow line ++ '\n' :: d.caretRow text.length) := by
    rw [← d.toList_render_excerpt line (List.length_pos_iff.mpr hne), String.toList_join]
    simp [excerpt]
  have hplace : ("\n  --> " ++ name ++ ":" ++ toString d.span.line.toNat ++ ":" ++
      toString d.span.column.toNat).toList = '\n' :: d.placeRow name := by
    simp [placeRow]
  have hnotes := @toList_join_remarks "\n  = note: " "  = note: " rfl d.notes
  have hhelps := @toList_join_remarks "\n  = help: " "  = help: " rfl d.helps
  rw [rows, List.append_assoc, List.cons_append, intercalate_cons_newline, render, hexcerpt, hplain]
  simp only [String.toList_append, hnotes, hhelps, hplace, hmiddle, Option.toList_some,
    List.append_nil, List.map_singleton, List.flatMap_append, List.flatMap_cons,
    List.append_assoc, List.cons_append, List.nil_append]

/-- The rows of a plain diagnostic hold no line feed, if the name of the source and the line hold
none. -/
private theorem newline_not_mem_rows {d : Diagnostic} (hplain : d.Plain) {name : String}
    (hname : '\n' ∉ name.toList) {line : List Char} (hline : '\n' ∉ line) (width : Nat) :
    ∀ row ∈ d.rows name line width, '\n' ∉ row := by
  have hgutter : '\n' ∉ d.gutter := by
    simp [gutter, List.leftpad, Dump.newline_not_mem_toDigits]
  intro row hrow
  simp only [rows, List.mem_append, List.mem_cons, List.not_mem_nil, or_false, List.mem_map] at hrow
  rcases hrow with ((rfl | rfl | rfl | rfl) | ⟨n, hn, rfl⟩) | ⟨h, hh, rfl⟩
  · exact hplain.headline
  · simp [placeRow, hname, Dump.newline_not_mem_toDigits]
  · simp [sourceRow, hline, hgutter]
  · simp [caretRow]
  · simpa using hplain.notes n hn
  · simpa using hplain.helps h hh

/-- **A rendered diagnostic is split into its rows** at its line feeds. -/
theorem splitOn_render {d : Diagnostic} (hplain : d.Plain) {source : String} {line text : List Char}
    (hline : d.span.lineText? source.toList = .ok line)
    (htext : d.span.snippet? source.toList = .ok text) (hne : text ≠ []) {name : String}
    (hname : '\n' ∉ name.toList) :
    (d.render name source).toList.splitOn '\n' = d.rows name line text.length := by
  have hrows := newline_not_mem_rows hplain hname (Span.newline_not_mem_of_lineText? hline)
  rw [d.toList_render hplain.snippets hline htext hne name]
  exact List.splitOn_intercalate '\n' (hrows text.length) (by simp [rows])

/-- The first caret stands behind the gutter and as many blanks as the column says, for none of
these is a caret. -/
private theorem idxOf_caretRow {width : Nat} (hwidth : 0 < width) :
    (d.caretRow width).idxOf '^' = d.gutter.length + (3 + (d.span.column.toNat - 1)) := by
  have hblanks : ∀ n : Nat, '^' ∉ List.replicate n ' ' := fun n => by simp
  have hbar : '^' ∉ [' ', '|', ' '] := by decide
  obtain ⟨n, rfl⟩ : ∃ n, width = n + 1 := ⟨width - 1, by omega⟩
  rw [caretRow, List.idxOf_append_of_notMem (hblanks _), List.idxOf_append_of_notMem hbar,
    List.idxOf_append_of_notMem (hblanks _), List.replicate_succ, List.idxOf_cons_self,
    List.length_replicate, List.length_replicate]
  rfl

/-- **The first caret stands under the character** at the column of the span. -/
theorem getElem?_sourceRow (shown : List Char) {width : Nat} (hwidth : 0 < width) :
    (d.sourceRow shown)[(d.caretRow width).idxOf '^']? = shown[d.span.column.toNat - 1]? := by
  have hbar : [' ', '|', ' '].length = 3 := rfl
  rw [idxOf_caretRow d hwidth, sourceRow, List.getElem?_append_right (Nat.le_add_right _ _),
    Nat.add_sub_cancel_left, List.getElem?_append_right (hbar ▸ Nat.le_add_right 3 _), hbar,
    Nat.add_sub_cancel_left]

end Diagnostic

/-! ### The rendered report -/

/-- **Reports point at what they are about**, if the source is short enough for lines and columns to
be counted. Each report is rendered as a headline, the place, the line of its span, carets below
it, and its notes and helps, one row each. The gutters of the two rows in the middle are equally
wide; there are as many carets as the span has characters, and the first stands under the character
at which the span starts. Each token but the last starts at a character that its line shows, too;
the end of the input is on a line unless a line feed stands in front of it. -/
theorem reports_point (names : Namespaces) (source : String)
    (hshort : source.toList.length < 2 ^ 32 - 1) :
    let cs := source.toList
    let reading := tokenize names source
    (∀ d ∈ reading.diagnostics, ∀ name : String, '\n' ∉ name.toList →
      ∃ line text c, d.span.Shows cs line c ∧ d.span.snippet? cs = .ok text ∧
        (d.render name source).toList.splitOn '\n' = d.rows name line text.length ∧
        (d.rows name line text.length).length = 4 + d.notes.length + d.helps.length ∧
        (d.sourceRow line)[(d.caretRow text.length).idxOf '^']? = some c) ∧
      (∀ t ∈ reading.tokens, t.isEof = false → ∃ line c, t.span.Shows cs line c) ∧
      ∀ t ∈ reading.tokens, t.isEof = true →
        ((∃ line, t.span.lineText? cs = .ok line) ↔ cs.getLast? ≠ some '\n') := by
  intro cs reading
  obtain ⟨happ, -⟩ := Trivia.opens_prologue cs
  have htokens : reading.tokens = _ := (tokenize_eq names source).1
  refine ⟨fun d hd name hname => ?_, fun t ht heof => ?_, fun t ht heof => ?_⟩
  · obtain ⟨hvisible, hplain⟩ := renders_of_mem_diagnostics_tokenize names source d hd
    obtain ⟨line, c, more, hshows, htext⟩ := hvisible.shows hshort
    have hne : c :: more ≠ [] := List.cons_ne_nil c more
    refine ⟨line, c :: more, c, hshows, htext, ?_, d.length_rows _ _ _, ?_⟩
    · exact Diagnostic.splitOn_render hplain hshows.text htext hne hname
    · rw [d.getElem?_sourceRow line (List.length_pos_of_ne_nil hne), hshows.column]
  · rw [htokens] at ht
    rcases exists_of_mem_tokens_divide names _ happ t ht with
      rfl | ⟨front, c, rest, hcs, hclear, rfl, -⟩
    · cases heof
    · have hvisible := Lexeme.visible_span_scan names front rest hclear.1
      rw [hcs] at hvisible
      obtain ⟨line, c, -, hshows, -⟩ := hvisible.shows hshort
      exact ⟨line, c, hshows⟩
  · rw [htokens] at ht
    rcases exists_of_mem_tokens_divide names _ happ t ht with
      rfl | ⟨front, c, rest, -, -, rfl, -⟩
    · exact Span.lineText?_end (Position.toNat_line_after hshort)
    · rw [Lexeme.isEof_token_scan] at heof
      cases heof

/-- Behind a byte-order mark and an empty line that ends with two characters, a string with an
escape that has no meaning. -/
theorem reports_point_escape :
    let source := "\ufeff\r\nü \"\\ä\"\r\n"
    let d : Diagnostic :=
      { level := .warning
        message := "unknown escape sequence `\\ä`"
        span := ⟨9, 12, 2, 4⟩
        code := some Code.unknownEscape
        notes := ["supported escapes are \\n \\t \\r \\\\ and \\\""] }
    let last := Token.eof ⟨15, 15, 3, 1⟩
    source.toList.length < 2 ^ 32 - 1 ∧ '\n' ∉ "m".toList ∧
      d ∈ (tokenize .empty source).diagnostics ∧ last ∈ (tokenize .empty source).tokens ∧
      (d.render "m" source).toList.splitOn '\n' =
        ["warning[W1001]: unknown escape sequence `\\ä`".toList,
          "  --> m:2:4".toList,
          "  2 | ü \"\\ä\"".toList,
          "    |    ^^".toList,
          "  = note: supported escapes are \\n \\t \\r \\\\ and \\\"".toList] ∧
      ¬ ∃ line, last.span.lineText? source.toList = .ok line := by
  intro source d last
  have hshort : source.toList.length < 2 ^ 32 - 1 := by decide +kernel
  have hname : '\n' ∉ "m".toList := by decide +kernel
  have hd : d ∈ (tokenize .empty source).diagnostics := by decide +kernel
  have hlast : last ∈ (tokenize .empty source).tokens := by decide +kernel
  obtain ⟨hreports, -, hend⟩ := reports_point .empty source hshort
  obtain ⟨line, text, c, hshows, htext, hrows, -⟩ := hreports d hd "m" hname
  have hline : d.span.lineText? source.toList = .ok "ü \"\\ä\"".toList := by decide +kernel
  have hpart : d.span.snippet? source.toList = .ok ['\\', 'ä'] := by decide +kernel
  obtain rfl := Except.ok.inj (hshows.text.symm.trans hline)
  obtain rfl := Except.ok.inj (htext.symm.trans hpart)
  refine ⟨hshort, hname, hd, hlast, hrows.trans (by decide +kernel), fun hline => ?_⟩
  exact (hend last hlast rfl).mp hline (by decide +kernel)

end Lexis
