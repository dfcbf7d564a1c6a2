import Lexis.Proofs.Reports
import Mathlib.Algebra.Group.Nat.Even
import Mathlib.Data.List.DropRight
import Mathlib.Data.List.Infix

/-!
# A string ends at the first mark that is not escaped

The scanner takes the characters of a string one by one or, behind a backslash, two at a time. The
rule that it follows can be said **without reading from the front**: a quotation mark closes the
string iff the backslashes right in front of it can be paired, and the first such mark counts
(`Text.Closes`, `Text.Ends`).

Whether a mark closes the string does not change when a plain character or an escape is put in front
of the text, as two backslashes more leave their number even or odd (`Text.slashes_cons`). So the
scanner's own recursion carries the proof (`Lexeme.ends_body`), also if the input ends inside a run
of backslashes.
-/

namespace Lexis

/-! ### Marks that close a string -/

namespace Text

/-- How many backslashes a text ends in. -/
def slashes (s : List Char) : Nat :=
  (s.rtakeWhile (· == '\\')).length

/-- Behind `inner` the text has a quotation mark, in front of which the backslashes can be
**paired**. -/
def Closes (text inner : List Char) : Prop :=
  inner ++ ['"'] <+: text ∧ Even (slashes inner)

instance (text inner : List Char) : Decidable (Closes text inner) :=
  inferInstanceAs (Decidable (_ ∧ _))

/-- The text ends a string that has `inner` in it: `inner` reaches to the first mark that closes the
string, or there is no such mark. -/
def Ends (text inner : List Char) (closed : Bool) : Prop :=
  if closed then Closes text inner ∧ ∀ s, Closes text s → inner.length ≤ s.length
  else inner = text ∧ ∀ s, ¬ Closes text s

/-- A backslash at the front counts if there is nothing else, since the backslashes are counted from
the end. -/
private theorem slashes_cons (c : Char) (s : List Char) :
    slashes (c :: s) = slashes s + if c = '\\' ∧ s.all (· == '\\') = true then 1 else 0 := by
  simp only [slashes, List.rtakeWhile, List.length_reverse, List.reverse_cons,
    List.takeWhile_append]
  by_cases hs : s.all (· == '\\') = true
  · have hall : s.reverse.takeWhile (· == '\\') = s.reverse :=
      List.takeWhile_eq_self_iff.mpr (by simpa using hs)
    rw [hall, if_pos List.length_reverse, List.length_append, List.length_reverse]
    by_cases hc : c = '\\'
    · rw [if_pos ⟨hc, hs⟩]
      simp [hc]
    · rw [if_neg fun h => hc h.1]
      simp [hc]
  · have hnot : (s.reverse.takeWhile (· == '\\')).length ≠ s.length := by
      intro hlength
      have hself := (List.takeWhile_prefix _).eq_of_length (hlength.trans List.length_reverse.symm)
      exact hs (by simpa using List.takeWhile_eq_self_iff.mp hself)
    rw [if_neg hnot, if_neg fun h => hs h.2, Nat.add_zero]

private theorem slashes_cons_of_ne {c : Char} (s : List Char) (h : c ≠ '\\') :
    slashes (c :: s) = slashes s := by
  rw [slashes_cons, if_neg fun hc => h hc.1, Nat.add_zero]

/-- **An escape at the front** adds two backslashes or none, so the rule can be followed from the
front although it counts from behind. -/
theorem even_slashes_escape (c : Char) (s : List Char) :
    Even (slashes ('\\' :: c :: s)) ↔ Even (slashes s) := by
  rw [slashes_cons, slashes_cons]
  simp only [true_and, List.all_cons, Bool.and_eq_true, beq_iff_eq]
  split
  · rw [Nat.add_assoc, Nat.even_add]
    exact iff_true_right (by decide)
  · simp only [Nat.add_zero]

/-- An escape is passed as a whole, also one of a quotation mark: with a single backslash in front
of it, the mark does not close. -/
private theorem closes_escape (c : Char) (text s : List Char) :
    Closes (['\\', c] ++ text) s ↔ ∃ t, s = ['\\', c] ++ t ∧ Closes text t := by
  constructor
  · rintro ⟨hmark, heven⟩
    match s with
    | [] => simp at hmark
    | [d] =>
      -- the mark would be the one that is escaped, with one backslash in front
      obtain ⟨rfl, -⟩ : d = '\\' ∧ '"' = c := by simpa using hmark
      exact absurd heven (by decide)
    | d :: e :: t =>
      obtain ⟨rfl, rfl, hrest⟩ : d = '\\' ∧ e = c ∧ t ++ ['"'] <+: text := by simpa using hmark
      exact ⟨t, rfl, hrest, (even_slashes_escape e t).mp heven⟩
  · rintro ⟨t, rfl, hmark, heven⟩
    exact ⟨by simpa using hmark, (even_slashes_escape c t).mpr heven⟩

/-- A character that is neither a quotation mark nor a backslash is passed: it closes nothing and
adds nothing to the backslashes in front of a mark. -/
private theorem closes_plain {c : Char} (text s : List Char) (hquote : c ≠ '"')
    (hslash : c ≠ '\\') : Closes ([c] ++ text) s ↔ ∃ t, s = [c] ++ t ∧ Closes text t := by
  constructor
  · rintro ⟨hmark, heven⟩
    match s with
    | [] =>
      have hmark : '"' = c := by simpa using hmark
      exact absurd hmark.symm hquote
    | d :: t =>
      obtain ⟨rfl, hrest⟩ : d = c ∧ t ++ ['"'] <+: text := by simpa using hmark
      exact ⟨t, rfl, hrest, slashes_cons_of_ne t hslash ▸ heven⟩
  · rintro ⟨t, rfl, hmark, heven⟩
    exact ⟨by simpa using hmark, (slashes_cons_of_ne t hslash).symm ▸ heven⟩

/-- What is passed in front of a text does not end the string. -/
theorem Ends.append {front text inner : List Char} {closed : Bool}
    (hfront : ∀ s, Closes (front ++ text) s ↔ ∃ t, s = front ++ t ∧ Closes text t)
    (h : Ends text inner closed) : Ends (front ++ text) (front ++ inner) closed := by
  cases closed with
  | true =>
    obtain ⟨hinner, hfirst⟩ := h
    refine ⟨(hfront _).mpr ⟨inner, rfl, hinner⟩, fun s hs => ?_⟩
    obtain ⟨t, rfl, ht⟩ := (hfront s).mp hs
    simpa using hfirst t ht
  | false =>
    obtain ⟨rfl, hnone⟩ := h
    refine ⟨rfl, fun s hs => ?_⟩
    obtain ⟨t, -, ht⟩ := (hfront s).mp hs
    exact hnone t ht

end Text

/-! ### The body of a string -/

namespace Lexeme

open Text

/-- What stands between the marks of a string. -/
def Body.inner (b : Body) : List Char :=
  b.pieces.flatMap Piece.text

@[simp]
theorem Body.inner_cons (p : Piece) (b : Body) : (b.cons p).inner = p.text ++ b.inner := rfl

/-- **The scanner stops at the first mark that closes the string.** By induction on the body, whose
steps are the two ways to pass a part. -/
theorem ends_body (cs : List Char) : Ends cs (body cs).inner (body cs).closed := by
  fun_induction body cs with
  | case1 => exact ⟨rfl, fun s hs => by simpa using hs.1⟩
  | case2 rest => exact ⟨⟨⟨rest, rfl⟩, Even.zero⟩, fun s _ => Nat.zero_le _⟩
  | case3 =>
    refine ⟨rfl, fun s hs => ?_⟩
    have hmark := hs.1
    rcases s with _ | ⟨d, t⟩ <;> simp at hmark
  | case4 c rest ih => exact ih.append (closes_escape c rest)
  | case5 c rest hquote hlone hescape ih =>
    exact ih.append fun s => closes_plain rest s hquote (ne_backslash hlone hescape)

/-- The closing mark is in no escape, so those of the token are those of its inner text. -/
private theorem escapes_text_body (n : Nat) (cs : List Char) :
    escapes n (body cs).text = escapes n (body cs).inner := by
  fun_induction body cs generalizing n with
  | case1 | case2 | case3 => rfl
  | case4 c rest ih =>
    simp only [Body.text_cons, Body.inner_cons, Piece.text, List.cons_append, List.nil_append,
      escapes, ih]
  | case5 c rest hquote hlone hescape ih =>
    have hslash := ne_backslash hlone hescape
    simp only [Body.text_cons, Body.inner_cons, Piece.text, List.singleton_append,
      escapes_cons n _ hslash, ih]

/-- **An escape stands for one character**, and a backslash without a partner for none. So lengths
tell how many escapes there are. -/
theorem length_value_body (n : Nat) (cs : List Char) :
    ((body cs).pieces.flatMap Piece.value).length + (escapes n (body cs).inner).length +
        (if (body cs).closed = false ∧ ¬ Even (slashes (body cs).inner) then 1 else 0) =
      (body cs).inner.length := by
  fun_induction body cs generalizing n with
  | case1 => rfl
  | case2 => rfl
  | case3 => rfl
  | case4 c rest ih =>
    have ih := ih (n + 2)
    simp only [Body.closed_cons, Body.pieces_cons, Body.inner_cons, List.flatMap_cons, Piece.value,
      Piece.text, List.cons_append, List.nil_append, escapes, even_slashes_escape,
      List.length_cons]
    omega
  | case5 c rest hquote hlone hescape ih =>
    have ih := ih (n + 1)
    have hslash := ne_backslash hlone hescape
    simp only [Body.closed_cons, Body.pieces_cons, Body.inner_cons, List.flatMap_cons, Piece.value,
      Piece.text, List.singleton_append, escapes_cons n _ hslash, slashes_cons_of_ne _ hslash,
      List.length_cons]
    omega

end Lexeme

/-! ### Strings -/

/-- **A string ends at the first mark that closes it**, or else at the end of the input, and that is
reported for the whole token. Each escape without a meaning is reported where it stands; each escape
stands for one character, and a backslash without a partner, which only the end of the input can
leave, for none and without a report. -/
theorem strings_close_first (l : Lexer) {b : List Char}
    (h : l.skip.lexer.cursor.ahead = '"' :: b) :
    let p := l.skip.lexer.cursor.pos
    let t := l.next.value
    ∃ (inner : List Char) (closed : Bool), Text.Ends b inner closed ∧
      let text := '"' :: inner ++ if closed then ['"'] else []
      let escapes := Text.escapes 1 inner
      text ++ l.next.lexer.cursor.ahead = '"' :: b ∧ l.next.lexer.cursor.pos = p.advance text ∧
      t.kind = .string ∧ t.span = Span.between p (p.advance text) ∧
      l.next.diagnostics.map Diagnostic.problem =
        ((escapes.filter fun e => e.2 ∉ ['n', 't', 'r', '\\', '"']).map fun e =>
          .warning Code.unknownEscape
            (Span.between (p.advance (text.take e.1)) (p.advance (text.take (e.1 + 2))))) ++
          (if closed then [] else [.error Code.unterminatedString t.span]) ∧
      t.literal.length + escapes.length +
          (if closed = false ∧ ¬ Even (Text.slashes inner) then 1 else 0) = inner.length := by
  intro p t
  let x := Lexeme.quotation ('"' :: b)
  obtain ⟨ht, hreports, hahead, hpos⟩ : t = x.token p ∧ l.next.diagnostics = x.diagnostics p ∧
      l.next.lexer.cursor.ahead = x.rest ∧ l.next.lexer.cursor.pos = p.advance x.text := by
    have hnext := Lexer.next_of_ahead_skip h
    rwa [Lexeme.scan_quote] at hnext
  refine ⟨(Lexeme.body b).inner, (Lexeme.body b).closed, Lexeme.ends_body b, ?_⟩
  have hproblems := Lexeme.problems_quotation b p
  have hescapes : Text.escapes 0 x.text = Text.escapes 1 (Lexeme.body b).inner :=
    (Text.escapes_cons 0 _ (by decide)).trans (Lexeme.escapes_text_body 1 b)
  simp only [x, hescapes] at hproblems
  have hliteral :
      t.literal.length = ((Lexeme.body b).pieces.flatMap Lexeme.Piece.value).length := by
    rw [ht]
    exact String.length_ofList
  rw [hahead, hpos, hreports, hliteral, ht]
  exact ⟨Lexeme.quotation_append ('"' :: b), rfl, rfl, rfl, hproblems,
    Lexeme.length_value_body 1 b⟩

/-- Two backslashes escape one another, the third escapes the mark, and the last one has no
partner. -/
theorem strings_close_first_open :
    let b := "\\\\\\\"q\\".toList
    let l := Lexer.start .empty " \"\\\\\\\"q\\"
    l.skip.lexer.cursor.ahead = '"' :: b ∧ (∀ s, ¬ Text.Closes b s) ∧
      l.next.value.literal.length = 3 ∧
      l.next.diagnostics.map Diagnostic.problem =
        [.error Code.unterminatedString l.next.value.span] := by
  intro b l
  have hahead : l.skip.lexer.cursor.ahead = '"' :: b := by decide +kernel
  have hnone : ∀ s, ¬ Text.Closes b s := by
    have hinits : ∀ s ∈ b.inits, ¬ Text.Closes b s := by decide +kernel
    exact fun s hs => hinits s ((List.mem_inits _ _).mpr ((List.prefix_append s _).trans hs.1)) hs
  obtain ⟨inner, closed, hends, -, -, -, -, hproblems, hlength⟩ := strings_close_first l hahead
  cases closed with
  | true => exact absurd hends.1 (hnone inner)
  | false =>
    obtain ⟨rfl, -⟩ := hends
    have hcounts : (Text.escapes 1 b).length = 2 ∧ ¬ Even (Text.slashes b) ∧ b.length = 6 := by
      decide +kernel
    have hknown : (Text.escapes 1 b).filter (fun e => e.2 ∉ ['n', 't', 'r', '\\', '"']) = [] := by
      decide +kernel
    rw [hknown] at hproblems
    rw [if_pos ⟨rfl, hcounts.2.1⟩] at hlength
    exact ⟨hahead, hnone, by omega, hproblems⟩

end Lexis
