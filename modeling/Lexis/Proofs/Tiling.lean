import Lexis.Proofs.Division

/-!
# Tokens tile the source

The tokens of a source and the gaps between them **are** the source: no character is lost, none is
read twice, and what no token covers is trivia or the prologue.

`Tiles source behind ahead tokens` says this of a reader that has passed `behind` and has `ahead`
before it. Every division is such a tiling (`tiles_divide`), by induction on the division with the
text behind as the quantity that grows; bounds, order and extent of the spans are read off the
tiling afterwards.
-/

namespace Lexis

/-! ### Cutting texts at byte offsets -/

namespace Text

/-- The offset lies between two characters of the text, or at one of its ends. -/
def IsBoundary (offset : Nat) (text : List Char) : Prop :=
  ∃ front back, front ++ back = text ∧ byteLength front = offset

/-- Texts are cut no further on than they reach. -/
theorem IsBoundary.le {offset : Nat} {text : List Char} (h : IsBoundary offset text) :
    offset ≤ byteLength text := by
  obtain ⟨front, back, rfl, rfl⟩ := h
  rw [byteLength_append]
  omega

/-- A text is cut out of its surroundings by the offsets of its ends. -/
theorem slice_append (a b c : List Char) :
    slice (byteLength a) (byteLength (a ++ b)) (a ++ (b ++ c)) = some b := by
  have hle : byteLength a ≤ byteLength (a ++ b) := by
    rw [byteLength_append]
    omega
  have hlen : byteLength (a ++ b) - byteLength a = byteLength b := by
    rw [byteLength_append]
    omega
  rw [slice, if_pos hle, dropBytes_append, Option.bind_some, hlen, takeBytes_append]

end Text

/-! ### Tokens behind a text -/

namespace Lexeme

theorem start_token_after (x : Lexeme) (front : List Char) :
    (x.token (Position.after front)).span.start = Text.byteLength front :=
  Position.offset_after front

theorem stop_token_after (x : Lexeme) (front : List Char) :
    (x.token (Position.after front)).span.stop = Text.byteLength (front ++ x.text) := by
  simp only [token, span, Span.between, Position.advance_after, Position.offset_after]

/-- A token cuts the text of its lexeme out of the source. -/
theorem snippet?_token_after (x : Lexeme) (front back : List Char) :
    (x.token (Position.after front)).span.snippet? (front ++ (x.text ++ back)) = .ok x.text := by
  rw [Span.snippet?, start_token_after, stop_token_after, Text.slice_append]

end Lexeme

/-! ### Tilings -/

/-- Behind the text `behind` of the source, the tokens and the gaps in front of them make up the
text `ahead`. The end of the input is the last token and covers nothing; every other token covers
at least one character, and its span cuts exactly its text out of the source. -/
inductive Tiles (source : List Char) : List Char → List Char → List Token → Prop
  /-- The last gap, and the end of the input behind it. -/
  | ending {behind gap : List Char} {t : Token} :
      Trivia.Fills gap [] → t.isEof = true →
      t.span.start = Text.byteLength (behind ++ gap) →
      t.span.stop = Text.byteLength (behind ++ gap) →
      Tiles source behind gap [t]
  /-- A gap, a token behind it, and the tiles that follow. -/
  | item {behind gap text rest : List Char} {t : Token} {ts : List Token} :
      Trivia.Fills gap (text ++ rest) → t.isEof = false → text ≠ [] →
      t.span.start = Text.byteLength (behind ++ gap) →
      t.span.stop = Text.byteLength (behind ++ gap ++ text) →
      t.span.snippet? source = .ok text →
      Tiles source (behind ++ gap ++ text) rest ts →
      Tiles source behind (gap ++ (text ++ rest)) (t :: ts)

/-- **A division is a tiling**, wherever in a source the divided text stands. By induction along the
division: each lexeme tiles its gap and its own text, and what remains is a division again. -/
theorem tiles_divide (names : Namespaces) (cs : List Char) {behind source : List Char}
    (h : behind ++ cs = source) :
    Tiles source behind cs ((divide names cs).tokens (Position.after behind)) := by
  fun_induction divide names cs generalizing behind with
  | case1 cs hrest =>
    have hfills := Trivia.fills_scan cs
    have htext : (Trivia.scan cs).text = cs := by
      simpa [hrest] using Trivia.scan_append cs
    rw [hrest, htext] at hfills
    refine .ending hfills rfl ?_ ?_
    all_goals
      simp only [Token.eof, Span.point, htext, Position.advance_after, Position.offset_after]
  | case2 cs c rest hrest ih =>
    set x := Lexeme.scan names c rest with hx
    have hgap : (Trivia.scan cs).text ++ (x.text ++ x.rest) = cs := by
      rw [Lexeme.scan_append, ← hrest, Trivia.scan_append]
    have hfills : Trivia.Fills (Trivia.scan cs).text (x.text ++ x.rest) := by
      rw [Lexeme.scan_append, ← hrest]
      exact Trivia.fills_scan cs
    have hsource : behind ++ (Trivia.scan cs).text ++ (x.text ++ x.rest) = source := by
      rw [List.append_assoc, hgap, h]
    rw [Division.tokens, Position.advance_after]
    conv => arg 3; rw [← hgap]
    refine .item hfills (Lexeme.isEof_token_scan names c rest _)
      (Lexeme.scan_text_ne_nil names c rest) (x.start_token_after _) (x.stop_token_after _) ?_ ?_
    · rw [← hsource]
      exact x.snippet?_token_after _ _
    · -- the text behind grows by the gap and the lexeme:
      rw [Position.advance_after]
      exact ih (by rw [← hsource]; simp)

/-! ### What a tiling says of the spans -/

namespace Tiles

variable {source behind ahead : List Char} {ts : List Token}

/-- No token starts before the text behind has ended, as each token of a tiling stands behind the
ones before. -/
private theorem le_start (h : Tiles source behind ahead ts) :
    ∀ t ∈ ts, Text.byteLength behind ≤ t.span.start := by
  induction h with
  | ending _ _ hstart _ =>
    intro t ht
    obtain rfl := List.mem_singleton.mp ht
    rw [hstart, Text.byteLength_append]
    omega
  | item _ _ _ hstart _ _ _ ih =>
    intro t ht
    rcases List.mem_cons.mp ht with rfl | ht
    · rw [hstart, Text.byteLength_append]
      omega
    · have := ih t ht
      simp only [Text.byteLength_append] at this
      omega

/-- Tokens stand in their order, without overlap, for each of them starts behind the text that the
earlier ones take up. -/
theorem pairwise (h : Tiles source behind ahead ts) :
    ts.Pairwise fun t u => t.span.stop ≤ u.span.start := by
  induction h with
  | ending => exact List.pairwise_singleton _ _
  | item _ _ _ _ hstop _ hmore ih =>
    refine List.pairwise_cons.mpr ⟨fun u hu => ?_, ih⟩
    rw [hstop]
    exact hmore.le_start u hu

/-- Spans run forward and are cut between characters of the source, since both ends of a span have
whole texts in front of them. -/
theorem bounds (h : Tiles source behind ahead ts) (happ : behind ++ ahead = source) :
    ∀ t ∈ ts, t.span.start ≤ t.span.stop ∧
      Text.IsBoundary t.span.start source ∧ Text.IsBoundary t.span.stop source := by
  induction h with
  | @ending behind gap t _ _ hstart hstop =>
    intro u hu
    obtain rfl := List.mem_singleton.mp hu
    rw [hstart, hstop]
    exact ⟨le_rfl, ⟨_, [], by rw [List.append_nil, happ], rfl⟩,
      ⟨_, [], by rw [List.append_nil, happ], rfl⟩⟩
  | @item behind gap text rest t ts _ _ _ hstart hstop _ _ ih =>
    intro u hu
    rcases List.mem_cons.mp hu with rfl | hu
    · rw [hstart, hstop]
      refine ⟨?_, ⟨_, text ++ rest, ?_, rfl⟩, ⟨_, rest, ?_, rfl⟩⟩
      · simp only [Text.byteLength_append]
        omega
      · rw [List.append_assoc, happ]
      · rw [← happ]
        simp only [List.append_assoc]
    · exact ih (by rw [← happ]; simp only [List.append_assoc]) u hu

/-- A token other than the last covers some text, which its span cuts out of the source. -/
theorem exists_snippet (h : Tiles source behind ahead ts) :
    ∀ t ∈ ts, t.isEof = false → ∃ text, text ≠ [] ∧ t.span.snippet? source = .ok text := by
  induction h with
  | ending _ heof =>
    intro t ht hne
    obtain rfl := List.mem_singleton.mp ht
    simp [heof] at hne
  | item _ _ htext _ _ hsnippet _ ih =>
    intro t ht hne
    rcases List.mem_cons.mp ht with rfl | ht
    · exact ⟨_, htext, hsnippet⟩
    · exact ih t ht hne

/-- The end token is empty and stands at the end of the source. Only the last token of a tiling is
one. -/
private theorem span_of_isEof (h : Tiles source behind ahead ts) (happ : behind ++ ahead = source) :
    ∀ t ∈ ts, t.isEof = true →
      t.span.start = Text.byteLength source ∧ t.span.stop = Text.byteLength source := by
  induction h with
  | ending _ _ hstart hstop =>
    intro t ht _
    obtain rfl := List.mem_singleton.mp ht
    rw [hstart, hstop, happ]
    exact ⟨rfl, rfl⟩
  | item _ hne _ _ _ _ _ ih =>
    intro t ht heof
    rcases List.mem_cons.mp ht with rfl | ht
    · simp [hne] at heof
    · exact ih (by rw [← happ]; simp only [List.append_assoc]) t ht heof

end Tiles

/-- **Reading a source tiles it.** Behind the prologue, the gaps and the texts of the tokens are the
source, character by character. Each span runs forward, lies in the source and is cut between
characters; the tokens stand in their order; each of them covers a character, but for the end of
the input, which is empty and stands at the end of the source. -/
theorem tokenize_tiles (names : Namespaces) (source : String) :
    let cs := source.toList
    let tokens := (tokenize names source).tokens
    (∃ front body, front ++ body = cs ∧ Trivia.Opens front body ∧ Tiles cs front body tokens) ∧
      (∀ t ∈ tokens, t.span.start ≤ t.span.stop ∧ t.span.stop ≤ Text.byteLength cs ∧
        Text.IsBoundary t.span.start cs ∧ Text.IsBoundary t.span.stop cs) ∧
      tokens.Pairwise (fun t u => t.span.stop ≤ u.span.start) ∧
      (∀ t ∈ tokens, t.isEof = false → ∃ text, text ≠ [] ∧ t.span.snippet? cs = .ok text) ∧
      (∀ t ∈ tokens, t.isEof = true →
        t.span.start = Text.byteLength cs ∧ t.span.stop = Text.byteLength cs) := by
  intro cs tokens
  obtain ⟨happ, hopens⟩ := Trivia.opens_prologue cs
  -- the prologue is the text behind the first gap:
  have htiles : Tiles cs (Trivia.prologue cs).text (Trivia.content cs) tokens := by
    have h := tiles_divide names (Trivia.content cs) happ
    rwa [← (tokenize_eq names source).1] at h
  refine ⟨⟨_, _, happ, hopens, htiles⟩, fun t ht => ?_, htiles.pairwise, htiles.exists_snippet,
    htiles.span_of_isEof happ⟩
  obtain ⟨hle, hstart, hstop⟩ := htiles.bounds happ t ht
  exact ⟨hle, hstop.le, hstart, hstop⟩

end Lexis
