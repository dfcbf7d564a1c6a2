import Lexis.Proofs.Separation
import Lexis.Proofs.Tiling

/-!
# Reading lexemes again

The texts of the tokens of a source, written one behind the other with blanks in between, are read
as **the same tokens**: whatever stood between them before, and whichever blanks stand there now.
Only an unclosed block comment is not reported again, because it is gone.

* `divide_separated`: one lexeme behind blanks is found again, and what follows it is divided by
  itself. This is where `Lexeme.scan_of_separatesLike` comes in.
* `divide_spaced`: by induction on the division, the lexemes are the same but for the texts behind
  them, and no gap is unclosed.
* `Division.contents_tokens` and `Division.gists_diagnostics`: tokens and reports depend on the
  lexemes alone, if one does not look at spans.
-/

namespace Lexis

open Lexis.CharClass

/-! ### Texts with blanks in between -/

/-- What can stand between two lexemes: blanks, and at least one. -/
structure Separator where
  /-- The blanks. -/
  text : List Char
  /-- There is one. -/
  nonempty : text ≠ []
  /-- There is nothing else. -/
  blank : ∀ c ∈ text, isBlank c = true

instance : Inhabited Separator :=
  ⟨⟨[' '], by decide, by simp [isBlank]⟩⟩

/-- Writes texts one behind the other, each with its own separator in front. -/
def spaced (w : Nat → Separator) : List (List Char) → List Char
  | [] => []
  | text :: texts => (w 0).text ++ (text ++ spaced (fun i => w (i + 1)) texts)

private theorem blunt_spaced (w : Nat → Separator) (texts : List (List Char)) :
    Blunt (spaced w texts) := by
  intro c hc
  cases texts with
  | nil => cases hc
  | cons text texts =>
    obtain ⟨b, blanks, hw⟩ := List.exists_cons_of_ne_nil (w 0).nonempty
    rw [spaced, hw] at hc
    obtain rfl := Option.some.inj hc
    exact (w 0).blank b (by rw [hw]; exact List.mem_cons_self)

/-- Blanks are passed up to where no gap starts. -/
private theorem Trivia.scan_blanks_append {blanks r : List Char}
    (h : ∀ c ∈ blanks, isBlank c = true)
    (hclear : Clear r) : scan (blanks ++ r) = ⟨blanks, r, none⟩ := by
  induction blanks with
  | nil => exact scan_of_clear hclear
  | cons c blanks ih =>
    have hmore := ih fun d hd => h d (List.mem_cons_of_mem c hd)
    rw [List.cons_append, scan_blank_cons _ (h c List.mem_cons_self), hmore]
    rfl

/-- A text that is empty or begins with a blank has no prologue, so spaced texts are read from their
front. -/
private theorem Trivia.content_of_blunt {cs : List Char} (h : Blunt cs) : content cs = cs := by
  have hmark : cs.head? ≠ some byteOrderMark := fun hc => absurd (h _ hc) (by decide)
  have hshebang : shebangText cs = [] := by
    have hne : ∀ t, cs ≠ '#' :: '!' :: t := by
      rintro t rfl
      exact absurd (h '#' rfl) (by decide)
    rw [shebangText, shebang?]
    exact hne
  rw [content, text_prologue_of_head?_ne hmark, hshebang]
  rfl

/-! ### Divisions without the texts behind the lexemes -/

/-- The lexeme without the text behind it. -/
def Lexeme.alone (x : Lexeme) : Lexeme :=
  { x with rest := [] }

/-- What a report says, without its place: code, level and message. -/
def Diagnostic.gist (d : Diagnostic) : Option Code × Level × String :=
  (d.code, d.level, d.message)

/-- What a token is, without its place: kind and literal. -/
def Token.content (t : Token) : Kind × String :=
  (t.kind, t.literal)

/-- What the report of a flaw says, wherever it is. -/
def Flaw.gist (f : Flaw) : Option Code × Level × String :=
  (f.diagnostic Span.unknown Position.origin []).gist

private theorem Flaw.gist_diagnostic (token : Span) (start : Position) (text : List Char)
    (f : Flaw) : (f.diagnostic token start text).gist = f.gist := by
  cases f <;> rfl

/-- The report is about a block comment that is not closed. -/
def Diagnostic.isUnclosedComment (d : Diagnostic) : Bool :=
  d.code == some Code.unterminatedComment

/-- No flaw of a lexeme is taken for an unclosed comment. -/
private theorem Flaw.isUnclosedComment_diagnostic (token : Span) (start : Position)
    (text : List Char) (f : Flaw) : (f.diagnostic token start text).isUnclosedComment = false := by
  cases f <;> rfl

private theorem Lexeme.filter_diagnostics (x : Lexeme) (p : Position) :
    (x.diagnostics p).filter (!·.isUnclosedComment) = x.diagnostics p := by
  refine List.filter_eq_self.mpr fun d hd => ?_
  obtain ⟨f, -, rfl⟩ := List.mem_map.mp hd
  simp [f.isUnclosedComment_diagnostic]

private theorem Lexeme.gists_diagnostics (x : Lexeme) (p : Position) :
    (x.diagnostics p).map Diagnostic.gist = x.flaws.map Flaw.gist := by
  rw [diagnostics, List.map_map]
  exact List.map_congr_left fun f _ => f.gist_diagnostic _ _ _

/-- Unclosed comments are all that a gap reports. -/
private theorem Gap.filter_diagnostics (gap : Gap) (p : Position) :
    (gap.diagnostics p).filter (!·.isUnclosedComment) = [] := by
  refine List.filter_eq_nil_iff.mpr fun d hd => ?_
  obtain ⟨skip, -, rfl⟩ := Option.map_eq_some_iff.mp (Option.mem_toList.mp hd)
  simp [Gap.report, Diagnostic.isUnclosedComment]

namespace Division

/-- No gap ends in an open comment. -/
def Closed : Division → Prop
  | ending gap => gap.unclosed = none
  | item gap _ more => gap.unclosed = none ∧ more.Closed

/-- Tokens without their places come from the lexemes. -/
private theorem contents_tokens (p : Position) (d : Division) :
    (d.tokens p).map Token.content =
      (d.lexemes.map Lexeme.alone).map (fun x => (x.kind, String.ofList x.literal)) ++
        [(.eof, "")] := by
  induction d generalizing p with
  | ending gap => rfl
  | item gap x more ih =>
    rw [tokens, List.map_cons, ih]
    rfl

/-- Reports without their places come from the lexemes, but for those of unclosed comments, which
come from the gaps. -/
private theorem gists_diagnostics (p : Position) (d : Division) :
    ((d.diagnostics p).filter (!·.isUnclosedComment)).map Diagnostic.gist =
      (d.lexemes.map Lexeme.alone).flatMap fun x => x.flaws.map Flaw.gist := by
  induction d generalizing p with
  | ending gap =>
    rw [diagnostics, gap.filter_diagnostics]
    rfl
  | item gap x more ih =>
    rw [diagnostics, List.filter_append, List.filter_append, gap.filter_diagnostics,
      x.filter_diagnostics, List.nil_append, List.map_append, ih, x.gists_diagnostics]
    rfl

/-- Without an open comment there is no report of one. -/
private theorem Closed.filter_diagnostics {d : Division} (h : d.Closed) (p : Position) :
    (d.diagnostics p).filter (!·.isUnclosedComment) = d.diagnostics p := by
  induction d generalizing p with
  | ending gap =>
    rw [diagnostics, Gap.diagnostics_of_unclosed_eq_none h]
    rfl
  | item gap x more ih =>
    obtain ⟨hgap, hmore⟩ := h
    rw [diagnostics, Gap.diagnostics_of_unclosed_eq_none hgap, List.nil_append,
      List.filter_append, x.filter_diagnostics, ih hmore]

end Division

/-! ### Dividing again -/

/-- A lexeme is found again behind blanks and in front of a text that ends it likewise. A lexeme
that is left open has nothing behind it, or the blanks would become part of it. -/
private theorem divide_separated (names : Namespaces) {blanks : List Char} {c : Char}
    {rest r : List Char}
    (hblanks : ∀ b ∈ blanks, isBlank b = true) (hclear : Trivia.Clear (c :: rest))
    (h : SeparatesLike (Lexeme.scan names c rest).rest r)
    (hopen : (Lexeme.scan names c rest).isOpen = true → r = []) :
    let x := Lexeme.scan names c rest
    divide names (blanks ++ (x.text ++ r)) =
      .item ⟨blanks, x.text ++ r, none⟩ { x with rest := r } (divide names r) := by
  intro x
  obtain ⟨tail, htail, hscan⟩ := Lexeme.scan_of_separatesLike names c rest h hopen
  have hclear' : Trivia.Clear (x.text ++ r) := by
    rw [← Lexeme.scan_append names c rest] at hclear
    exact Lexeme.clear_append_of_separatesLike (Lexeme.scan_text_ne_nil names c rest) hclear h
  have hgap := Trivia.scan_blanks_append hblanks hclear'
  have hrest : (Trivia.scan (blanks ++ (x.text ++ r))).rest = c :: (tail ++ r) := by
    rw [hgap, htail]
    rfl
  rw [divide_of_rest_cons names hrest, hgap, hscan]

/-- **Dividing is undone by writing.** The lexemes of a text, written with blanks in between, are
the lexemes of what is written. By induction along the division, as a blank ends a lexeme as well as
what used to stand behind it. -/
theorem divide_spaced (names : Namespaces) (cs : List Char) (w : Nat → Separator) :
    let d := divide names cs
    let again := divide names (spaced w (d.lexemes.map Lexeme.text))
    again.lexemes.map Lexeme.alone = d.lexemes.map Lexeme.alone ∧ again.Closed := by
  fun_induction divide names cs generalizing w with
  | case1 cs hrest =>
    intro d again
    have hagain : again = .ending ⟨[], [], none⟩ := divide_nil names
    rw [hagain]
    exact ⟨rfl, rfl⟩
  | case2 cs c rest hrest ih =>
    intro d again
    set x := Lexeme.scan names c rest with hx
    set r := spaced (fun i => w (i + 1)) ((divide names x.rest).lexemes.map Lexeme.text) with hr
    have hclear : Trivia.Clear (c :: rest) := by
      rw [← hrest]
      exact Trivia.clear_rest_scan cs
    -- a lexeme without its closing mark is the last one:
    have hopen : x.isOpen = true → r = [] := by
      intro ho
      rw [hr, Lexeme.rest_of_isOpen ho, divide_nil]
      rfl
    have hagain : again = .item ⟨(w 0).text, x.text ++ r, none⟩ { x with rest := r }
        (divide names r) :=
      divide_separated names (w 0).blank hclear (.inl (blunt_spaced _ _)) hopen
    obtain ⟨hlexemes, hclosed⟩ := ih fun i => w (i + 1)
    rw [hagain]
    refine ⟨?_, rfl, hclosed⟩
    rw [Division.lexemes, List.map_cons, hlexemes]
    rfl

/-! ### Tokens and reports -/

/-- The tokens of a division cut the texts of its lexemes out of the source. By induction along the
division, with the text behind growing. -/
private theorem snippets_divide (names : Namespaces) (cs : List Char) {behind source : List Char}
    (h : behind ++ cs = source) :
    (((divide names cs).tokens (Position.after behind)).filter (!·.isEof)).map
        (·.span.snippet? source) =
      ((divide names cs).lexemes.map Lexeme.text).map .ok := by
  fun_induction divide names cs generalizing behind with
  | case1 cs hrest => rfl
  | case2 cs c rest hrest ih =>
    set x := Lexeme.scan names c rest with hx
    have hsource : behind ++ (Trivia.scan cs).text ++ (x.text ++ x.rest) = source := by
      rw [Lexeme.scan_append, ← hrest, List.append_assoc, Trivia.scan_append, h]
    have happ : behind ++ (Trivia.scan cs).text ++ x.text ++ x.rest = source := by
      rw [← hsource, List.append_assoc _ x.text]
    have hsnippet := x.snippet?_token_after (behind ++ (Trivia.scan cs).text) x.rest
    rw [hsource] at hsnippet
    rw [Division.tokens, Position.advance_after, Position.advance_after,
      List.filter_cons_of_pos (by simp [Lexeme.isEof_token_scan, hx]), List.map_cons, hsnippet,
      ih happ]
    rfl

/-- **Reading what was read gives the same.** Every token but the end token covers a text of the
source. These texts, each behind some blanks, are read as tokens of the same kinds with the same
literals, and the same is reported with the same codes, levels and messages, but for an unclosed
comment. -/
theorem tokenize_spaced (names : Namespaces) (source : String) (w : Nat → Separator) :
    let first := tokenize names source
    ∃ texts : List (List Char),
      (first.tokens.filter (!·.isEof)).map (·.span.snippet? source.toList) = texts.map .ok ∧
      let again := tokenize names (String.ofList (spaced w texts))
      again.tokens.map Token.content = first.tokens.map Token.content ∧
      again.diagnostics.map Diagnostic.gist =
        (first.diagnostics.filter (!·.isUnclosedComment)).map Diagnostic.gist := by
  intro first
  obtain ⟨htokens, hdiagnostics⟩ := tokenize_eq names source
  set body := Trivia.content source.toList with hbody
  refine ⟨(divide names body).lexemes.map Lexeme.text, ?_, ?_⟩
  · rw [htokens]
    exact snippets_divide names body (Trivia.opens_prologue source.toList).1
  · intro again
    obtain ⟨htokens', hdiagnostics'⟩ := tokenize_eq names
      (String.ofList (spaced w ((divide names body).lexemes.map Lexeme.text)))
    obtain ⟨hlexemes, hclosed⟩ := divide_spaced names body w
    -- the new text begins with a blank, so nothing of it is taken for a prologue:
    simp only [String.toList_ofList, Trivia.content_of_blunt (blunt_spaced w _)]
      at htokens' hdiagnostics'
    constructor
    · rw [htokens, htokens', Division.contents_tokens, Division.contents_tokens, hlexemes]
    · rw [hdiagnostics, hdiagnostics', Division.gists_diagnostics, ← hclosed.filter_diagnostics,
        Division.gists_diagnostics, hlexemes]

end Lexis
