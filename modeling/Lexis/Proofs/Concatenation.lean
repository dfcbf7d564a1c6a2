import Lexis.Proofs.Placement
import Lexis.Proofs.Progress
import Lexis.Proofs.Prologue
import Lexis.Proofs.Separation

/-!
# Two sources with a line feed in between

If nothing is left open at the end of a text `a`, a line feed behind it ends what the end of the
input would have ended: the last lexeme, a line comment, a `#!` line. What follows is then read as
if it stood by itself (`divide_append_newline`, by induction on the division of `a`), so that the
tokens and reports of `a`, a line feed and `b` are those of `a` and those of `b`, moved.

Left open are a string, a command or a block comment **without its closing mark**; each of them is
reported (`Division.complete_of_diagnostics`), so that the reports of `a` tell whether this is so.
-/

namespace Lexis

/-! ### Nothing left open -/

/-- The report is about a string, a comment or a command without its closing mark. -/
def Diagnostic.isUnterminated (d : Diagnostic) : Bool :=
  d.code == some Code.unterminatedString || d.code == some Code.unterminatedComment ||
    d.code == some Code.unterminatedCommand

private theorem Flaw.isUnterminated_diagnostic {f : Flaw} (h : f.isOpen = true) (token : Span)
    (start : Position) (text : List Char) :
    (f.diagnostic token start text).isUnterminated = true := by
  cases f with
  | unterminatedString => rfl
  | unterminatedCommand => rfl
  | unexpected => cases h
  | noDigits => cases h
  | unknownEscape => cases h

/-- No lexeme lacks its closing mark, and the last gap is closed. -/
def Division.Complete : Division → Prop
  | ending gap => gap.unclosed = none
  | item _ x more => x.isOpen = false ∧ more.Complete

/-- What is left open is reported. So a division without such a report is complete. -/
private theorem Division.complete_of_diagnostics {d : Division} {p : Position}
    (h : ∀ r ∈ d.diagnostics p, r.isUnterminated = false) : d.Complete := by
  induction d generalizing p with
  | ending gap =>
    rcases hopen : gap.unclosed with _ | skip
    · exact hopen
    · have hreport := h (Gap.report (p.advance (gap.text.take skip)) (p.advance gap.text))
        (by simp [Division.diagnostics, Gap.diagnostics, hopen])
      cases hreport
  | item gap x more ih =>
    simp only [Division.diagnostics, List.mem_append] at h
    refine ⟨?_, ih fun r hr => h r (.inr hr)⟩
    by_contra hopen
    obtain ⟨f, hf, hfopen⟩ := List.any_eq_true.mp (Bool.not_eq_false _ ▸ hopen)
    have hreport := h _ (.inl (.inr (List.mem_map_of_mem hf)))
    rw [Flaw.isUnterminated_diagnostic hfopen] at hreport
    cases hreport

/-! ### Gaps with more text in front -/

/-- Text in front of a gap moves its report. -/
theorem Gap.diagnostics_prepend (text : List Char) (gap : Gap) (p : Position) :
    (gap.prepend text).diagnostics p = gap.diagnostics (p.advance text) := by
  rcases hopen : gap.unclosed with _ | skip
  · simp [Gap.diagnostics, Gap.prepend, hopen]
  · have htake : (text ++ gap.text).take (skip + text.length) = text ++ gap.text.take skip := by
      rw [Nat.add_comm, List.take_length_add_append]
    simp only [Gap.diagnostics, Gap.prepend, hopen, Option.map_some, htake,
      Position.advance_append]

/-- Text that only makes the first gap longer moves all that follows, and it changes neither the
lexemes nor what is open. -/
private theorem divide_of_scan_eq_prepend (names : Namespaces) {cs b text : List Char}
    (h : Trivia.scan cs = (Trivia.scan b).prepend text) (p : Position) :
    (divide names cs).tokens p = (divide names b).tokens (p.advance text) ∧
      (divide names cs).diagnostics p = (divide names b).diagnostics (p.advance text) := by
  rcases hrest : (Trivia.scan b).rest with _ | ⟨c, rest⟩
  · have hrest' : (Trivia.scan cs).rest = [] := by rw [h, Gap.rest_prepend, hrest]
    rw [divide_of_rest_nil names hrest, divide_of_rest_nil names hrest', h]
    refine ⟨?_, Gap.diagnostics_prepend _ _ _⟩
    simp only [Division.tokens, Gap.text_prepend, Position.advance_append]
  · have hrest' : (Trivia.scan cs).rest = c :: rest := by rw [h, Gap.rest_prepend, hrest]
    rw [divide_of_rest_cons names hrest, divide_of_rest_cons names hrest', h]
    simp only [Division.tokens, Division.diagnostics, Gap.text_prepend, Position.advance_append,
      Gap.diagnostics_prepend]
    exact ⟨trivial, trivial⟩

/-! ### A line feed between two texts -/

private theorem Division.tokens_ne_nil (d : Division) (p : Position) : d.tokens p ≠ [] := by
  cases d <;> exact List.cons_ne_nil _ _

/-- **A line feed separates two divisions.** By induction on the division of the first text: each
lexeme is read as before, since a line feed tells it no more than the end of the input did. -/
theorem divide_append_newline (names : Namespaces) (a b : List Char)
    (h : (divide names a).Complete) (p : Position) :
    (divide names (a ++ '\n' :: b)).tokens p =
        ((divide names a).tokens p).dropLast ++ (divide names b).tokens (p.advance (a ++ ['\n'])) ∧
      (divide names (a ++ '\n' :: b)).diagnostics p =
        (divide names a).diagnostics p ++
          (divide names b).diagnostics (p.advance (a ++ ['\n'])) := by
  fun_induction divide names a generalizing p with
  | case1 a hrest =>
    have hclosed : (Trivia.scan a).unclosed = none := h
    obtain ⟨htokens, hdiag⟩ :=
      divide_of_scan_eq_prepend names (Trivia.scan_append_newline b hrest hclosed) p
    rw [htokens, hdiag]
    simp [Division.tokens, Division.diagnostics, Gap.diagnostics, hclosed]
  | case2 a c rest hrest ih =>
    obtain ⟨hopen, hmore⟩ := h
    set gap := Trivia.scan a with hgap
    set x := Lexeme.scan names c rest with hx
    have ha : a = gap.text ++ (x.text ++ x.rest) := by
      rw [hx, Lexeme.scan_append, ← hrest, hgap, Trivia.scan_append]
    have hclosed : gap.unclosed = none := Trivia.unclosed_of_rest_eq_cons hrest
    have hlike : SeparatesLike x.rest (x.rest ++ '\n' :: b) :=
      separatesLike_append_blank x.rest b (by decide)
    obtain ⟨tail, hgap', hscan⟩ := scan_gap_of_separatesLike names hrest hlike
      (fun ho => by simp [← hx, hopen] at ho)
    have hcs : a ++ '\n' :: b = gap.text ++ (x.text ++ (x.rest ++ '\n' :: b)) := by
      conv => lhs; rw [ha]
      simp only [List.append_assoc]
    rw [← hgap, ← hx, ← hcs] at hgap'
    have hrest' : (Trivia.scan (a ++ '\n' :: b)).rest = c :: tail := by rw [hgap']
    have hq : p.advance (a ++ ['\n']) =
        ((p.advance gap.text).advance x.text).advance (x.rest ++ ['\n']) := by
      conv => lhs; rw [ha]
      simp only [Position.advance_append]
    obtain ⟨htokens, hdiag⟩ := ih hmore ((p.advance gap.text).advance x.text)
    rw [divide_of_rest_cons names hrest', hgap', hscan, hq]
    simp only [Division.tokens, Division.diagnostics]
    rw [htokens, hdiag, List.dropLast_cons_of_ne_nil (Division.tokens_ne_nil _ _)]
    refine ⟨rfl, ?_⟩
    simp only [Gap.diagnostics_of_unclosed_eq_none hclosed, List.nil_append, List.append_assoc]
    rfl

/-- The whole prologue of a text, and what a line feed and a second text make of it. A `#!` line
without an end takes the line feed, which otherwise ends the last gap. -/
private theorem tokenize_append_newline_eq (names : Namespaces) {front rest : List Char}
    (b : List Char) (h : Trivia.Leads front rest) (hcomplete : (divide names rest).Complete) :
    let first := tokenize names (String.ofList (front ++ rest))
    let both := tokenize names (String.ofList (front ++ rest ++ '\n' :: b))
    let q := Position.after (front ++ rest ++ ['\n'])
    both.tokens = first.tokens.dropLast ++ (divide names b).tokens q ∧
      both.diagnostics = first.diagnostics ++ (divide names b).diagnostics q := by
  intro first both q
  obtain ⟨htokens, hdiag⟩ := tokenize_of_leads names h
  rcases h.append_newline b with hmore | ⟨rfl, hmore⟩
  · obtain ⟨htokens', hdiag'⟩ := tokenize_of_leads names hmore
    obtain ⟨hboth, hboth'⟩ := divide_append_newline names rest b hcomplete (Position.after front)
    rw [Position.advance_after, ← List.append_assoc] at hboth hboth'
    rw [← List.append_assoc] at htokens' hdiag'
    exact ⟨by rw [htokens', hboth, htokens], by rw [hdiag', hboth', hdiag]⟩
  · -- a `#!` line without its line feed is all there is, and the line feed ends it
    obtain ⟨htokens', hdiag'⟩ := tokenize_of_leads names hmore
    rw [List.append_assoc, List.singleton_append] at htokens' hdiag'
    rw [divide_nil] at htokens hdiag
    simp only [List.append_nil] at htokens hdiag
    simp only [first, both, q, List.append_nil, htokens, hdiag, htokens', hdiag']
    exact ⟨rfl, rfl⟩

/-- The shift behind a text and a line feed: bytes and lines of both, and no columns, as a new line
begins. -/
private theorem shift_after_newline {a : List Char} (h : a.length < 2 ^ 32 - 2) :
    (Position.after (a ++ ['\n'])).shift =
      ⟨Text.byteLength a + 1, 1 + a.count '\n', 0⟩ := by
  have hlength : (a ++ ['\n']).length < 2 ^ 32 - 1 := by
    rw [List.length_append, List.length_singleton]
    omega
  have hwidth : Text.lastWidth (a ++ ['\n']) = 0 :=
    Text.lastWidth_append_of_mem a (List.mem_singleton.mpr rfl)
  rw [Position.shift, Position.offset_after, Position.toNat_line_after hlength,
    Position.toNat_column_after hlength, hwidth, Text.byteLength_append, List.count_append,
    List.count_singleton_self, Nat.add_comm 1]
  rfl

/-- **Reading two sources with a line feed in between.** If neither a string nor a comment nor a
command is left open in `a`, and `b` is plain, the tokens of both are those of `a` without its end
token, which is the last of them and no other, and then those of `b`, moved behind the line feed: by
the bytes and the lines of `a` and of the line feed, with the columns as they were. The reports are
those of `a`, all of them, and then those of `b`, moved in the same way. -/
theorem tokenize_append_newline (names : Namespaces) {a b : List Char}
    (hlength : a.length + b.length < 2 ^ 32 - 2)
    (hclosed : ∀ d ∈ (tokenize names (String.ofList a)).diagnostics, d.isUnterminated = false)
    (hplain : Trivia.Plain b) :
    let first := tokenize names (String.ofList a)
    let second := tokenize names (String.ofList b)
    let both := tokenize names (String.ofList (a ++ '\n' :: b))
    let m : Shift := ⟨Text.byteLength a + 1, 1 + a.count '\n', 0⟩
    (∃ last, first.tokens = first.tokens.dropLast ++ [last] ∧ last.isEof = true ∧
      ∀ t ∈ first.tokens.dropLast, t.isEof = false) ∧
    ∃ ts ds, both.tokens = first.tokens.dropLast ++ ts ∧
      both.diagnostics = first.diagnostics ++ ds ∧
      m.Carries second.tokens second.diagnostics ts ds := by
  intro first second both m
  have hleads := Trivia.leads_prologue a
  obtain ⟨happ, -⟩ := Trivia.opens_prologue a
  have hcomplete : (divide names (Trivia.content a)).Complete := by
    obtain ⟨-, hdiag⟩ := tokenize_of_leads names hleads
    rw [happ] at hdiag
    rw [hdiag] at hclosed
    exact Division.complete_of_diagnostics hclosed
  obtain ⟨htokens, hdiag⟩ := tokenize_append_newline_eq names b hleads hcomplete
  rw [happ] at htokens hdiag
  obtain ⟨before, last, hfirst, heof, hbefore⟩ :=
    (Lexer.start names (String.ofList a)).exists_drain_eq_concat
  have hdrop : first.tokens.dropLast = before :=
    (congrArg List.dropLast hfirst).trans List.dropLast_concat
  refine ⟨⟨last, by rw [hdrop]; exact hfirst, heof, by rwa [hdrop]⟩, _, _, htokens, hdiag, ?_⟩
  obtain ⟨hsecond, hsecond'⟩ := tokenize_of_plain names hplain
  have hm : (Position.after (a ++ ['\n'])).shift = m := shift_after_newline (by omega)
  rw [hsecond, hsecond', ← hm]
  refine carries_divide names ?_
  simp only [List.length_append, List.length_singleton]
  omega

/-- A number without digits and a line comment that the end of the input would end, then a string
with a flaw. -/
theorem tokenize_append_newline_comment :
    let a := ['0', 'x', ' ', '/', '/', '"']
    let b := ['"', '\\', 'q', '"']
    let first := tokenize .empty (String.ofList a)
    let second := tokenize .empty (String.ofList b)
    let both := tokenize .empty (String.ofList (a ++ '\n' :: b))
    a.length + b.length < 2 ^ 32 - 2 ∧ (∀ d ∈ first.diagnostics, d.isUnterminated = false) ∧
      Trivia.Plain b ∧
      ∃ ts ds, both.tokens = first.tokens.dropLast ++ ts ∧
        both.diagnostics = first.diagnostics ++ ds ∧
        Shift.Carries ⟨7, 1, 0⟩ second.tokens second.diagnostics ts ds := by
  intro a b first second both
  have hlength : a.length + b.length < 2 ^ 32 - 2 := by decide
  have hclosed : ∀ d ∈ first.diagnostics, d.isUnterminated = false := by decide +kernel
  have hplain : Trivia.Plain b := by decide
  obtain ⟨-, hboth⟩ := tokenize_append_newline .empty hlength hclosed hplain
  exact ⟨hlength, hclosed, hplain, hboth⟩

end Lexis
