import Lexis.Proofs.Division

/-!
# The whole prologue

`Trivia.Opens front rest` says that `front` *can* be a prologue in front of `rest`; the empty text
always can. `Trivia.Leads front rest` says that it is **the whole prologue**: what follows begins
with nothing that would still belong to it. This determines the prologue
(`text_prologue_of_leads`), so that to read `front ++ rest` is to divide `rest`
(`tokenize_of_leads`). What is known of one source then passes to another with the same front, as
long as the other leads on in the same way.
-/

namespace Lexis

namespace Trivia

/-! ### Texts without a prologue -/

/-- The text begins with neither a byte-order mark nor `#!`. -/
def Plain (cs : List Char) : Prop :=
  cs.head? ≠ some byteOrderMark ∧ ¬ ['#', '!'] <+: cs

instance (cs : List Char) : Decidable (Plain cs) :=
  inferInstanceAs (Decidable (_ ∧ _))

/-- How the two characters that open a `#!` line are matched. -/
theorem shebang_isPrefix_iff {cs : List Char} :
    ['#', '!'] <+: cs ↔ ∃ rest, cs = '#' :: '!' :: rest := by
  constructor
  · rintro ⟨rest, rfl⟩
    exact ⟨rest, rfl⟩
  · rintro ⟨rest, rfl⟩
    exact ⟨rest, rfl⟩

private theorem shebangText_of_not_isPrefix {cs : List Char} (h : ¬ ['#', '!'] <+: cs) :
    shebangText cs = [] := by
  rw [shebangText, shebang?]
  rintro rest rfl
  exact h (shebang_isPrefix_iff.mpr ⟨rest, rfl⟩)

private theorem shebangText_cons (cs : List Char) :
    shebangText ('#' :: '!' :: cs) =
      '#' :: '!' :: (cs.takeWhile (· != '\n') ++ (cs.dropWhile (· != '\n')).take 1) := rfl

/-- A `#!` line is found as it stands, up to and including its line feed or up to the end of the
source. -/
private theorem shebangText_append_of_shebang {line rest : List Char} (h : Shebang line rest)
    (hnone : line = [] → ¬ ['#', '!'] <+: rest) : shebangText (line ++ rest) = line := by
  cases h with
  | none => exact shebangText_of_not_isPrefix (hnone rfl)
  | @fed body _ hbody =>
    simp only [List.cons_append, List.append_assoc, shebangText_cons,
      List.takeWhile_append_of_pos (bne_newline hbody),
      List.dropWhile_append_of_pos (bne_newline hbody)]
    simp
  | @last body hbody =>
    simp only [List.append_nil, shebangText_cons,
      List.takeWhile_eq_self_iff.mpr (bne_newline hbody),
      List.dropWhile_eq_nil_iff.mpr (bne_newline hbody), List.take_nil]

/-- No byte-order mark stands in front of a `#!` line, so none is taken off where the line
begins. -/
theorem Shebang.head?_ne {line rest : List Char} (h : Shebang line rest)
    (hnone : line = [] → rest.head? ≠ some byteOrderMark) :
    (line ++ rest).head? ≠ some byteOrderMark := by
  cases h with
  | none => exact hnone rfl
  | fed => simp [byteOrderMark]
  | last => simp [byteOrderMark]

/-! ### Whole prologues -/

/-- `front` is the whole prologue in front of `rest`. -/
structure Leads (front rest : List Char) : Prop where
  /-- It is a prologue. -/
  opens : Opens front rest
  /-- No byte-order mark follows where one would be read. -/
  mark : front = [] → rest.head? ≠ some byteOrderMark
  /-- No `#!` follows where it would be read. -/
  shebang : front = [] ∨ front = [byteOrderMark] → ¬ ['#', '!'] <+: rest

/-- A text that opens neither way has an empty prologue. -/
theorem Plain.leads {rest : List Char} (h : Plain rest) : Leads [] rest :=
  ⟨.unmarked (.none rest), fun _ => h.1, fun _ => h.2⟩

/-- A prologue with a line is whole, whatever follows. -/
theorem Opens.leads {front rest : List Char} (h : Opens front rest) (hne : front ≠ [])
    (hmark : front ≠ [byteOrderMark]) : Leads front rest :=
  ⟨h, fun hnil => absurd hnil hne, fun hor => by
    rcases hor with hnil | hone
    · exact absurd hnil hne
    · exact absurd hone hmark⟩

/-- **The whole prologue is what is read as the prologue.** The conditions on the text behind it
keep the reader from going on. -/
theorem text_prologue_of_leads {front rest : List Char} (h : Leads front rest) :
    (prologue (front ++ rest)).text = front := by
  obtain ⟨hopens, hmark, hshebang⟩ := h
  cases hopens with
  | unmarked hline =>
    rw [text_prologue_of_head?_ne (hline.head?_ne hmark)]
    exact shebangText_append_of_shebang hline fun hnil => hshebang (.inl hnil)
  | @marked line _ hline =>
    rw [List.cons_append, text_prologue_mark_cons,
      shebangText_append_of_shebang hline fun hnil => hshebang (.inr (by rw [hnil]))]

private theorem content_of_leads {front rest : List Char} (h : Leads front rest) :
    content (front ++ rest) = rest := by
  rw [content, text_prologue_of_leads h, List.drop_left]

/-- What is read as the prologue is the whole prologue: every source divides into the two. -/
theorem leads_prologue (cs : List Char) : Leads (prologue cs).text (content cs) := by
  obtain ⟨happ, hopens⟩ := opens_prologue cs
  have hline : ∀ rest, ['#', '!'] <+: rest → shebangText rest ≠ [] := by
    intro rest hrest
    obtain ⟨rest, rfl⟩ := shebang_isPrefix_iff.mp hrest
    rw [shebangText_cons]
    exact List.cons_ne_nil _ _
  refine ⟨hopens, fun hnil hmark => ?_, fun hor hrest => ?_⟩
  · rw [hnil, List.nil_append] at happ
    rw [happ] at hmark
    obtain ⟨t, rfl⟩ := List.head?_eq_some_iff.mp hmark
    rw [text_prologue_mark_cons] at hnil
    cases hnil
  · rcases hor with hnil | hone
    · rw [hnil, List.nil_append] at happ
      rw [happ] at hrest
      have hmark : cs.head? ≠ some byteOrderMark := by
        obtain ⟨t, rfl⟩ := shebang_isPrefix_iff.mp hrest
        simp [byteOrderMark]
      rw [text_prologue_of_head?_ne hmark] at hnil
      exact hline cs hrest hnil
    · rw [hone, List.singleton_append] at happ
      have htext := text_prologue_mark_cons (content cs)
      rw [happ, hone] at htext
      exact hline _ hrest (List.cons.inj htext).2.symm

/-! ### Other texts behind the same prologue -/

/-- A prologue in front of some text is a prologue in front of any: only at the end of the input may
its line lack the line feed. -/
private theorem Opens.of_ne_nil {front rest : List Char} (h : Opens front rest) (hne : rest ≠ [])
    (rest' : List Char) : Opens front rest' := by
  have hline : ∀ line, Shebang line rest → Shebang line rest' := by
    intro line h
    cases h with
    | none => exact .none rest'
    | fed hbody => exact .fed hbody
    | last hbody => exact absurd rfl hne
  cases h with
  | unmarked h => exact .unmarked (hline _ h)
  | marked h => exact .marked (hline _ h)

/-- Two characters behind the prologue decide that it is whole, since a `#!` is no longer than
that. -/
theorem Leads.of_take {front rest rest' : List Char} (h : Leads front rest) (hne : rest ≠ [])
    (htake : rest'.take 2 = rest.take 2) : Leads front rest' := by
  refine ⟨h.opens.of_ne_nil hne rest', fun hnil => ?_, fun hor hshebang => ?_⟩
  · have hhead : rest'.head? = rest.head? := by
      simpa [List.head?_take] using congrArg List.head? htake
    rw [hhead]
    exact h.mark hnil
  · refine h.shebang hor (List.prefix_iff_eq_take.mpr ?_)
    rw [List.length_cons, List.length_singleton, ← htake]
    exact List.prefix_iff_eq_take.mp hshebang

/-- **A line feed behind a text** leaves its prologue as it is, or ends a `#!` line that had no
end. -/
theorem Leads.append_newline {front rest : List Char} (h : Leads front rest) (b : List Char) :
    Leads front (rest ++ '\n' :: b) ∨ rest = [] ∧ Leads (front ++ ['\n']) b := by
  obtain ⟨hopens, hmark, hshebang⟩ := h
  -- the line feed is neither of the characters that a prologue begins with:
  have hplain : front = [] ∨ front = [byteOrderMark] → Opens front (rest ++ '\n' :: b) →
      Leads front (rest ++ '\n' :: b) := by
    intro hor hopens'
    refine ⟨hopens', fun hnil => ?_, fun _ hprefix => ?_⟩
    · cases rest with
      | nil => simp [byteOrderMark]
      | cons c rest => exact hmark hnil
    · obtain ⟨t, ht⟩ := shebang_isPrefix_iff.mp hprefix
      match rest with
      | [] => simp at ht
      | [c] => simp at ht
      | c :: d :: rest =>
        simp only [List.cons_append, List.cons.injEq] at ht
        obtain ⟨rfl, rfl, -⟩ := ht
        exact hshebang hor (shebang_isPrefix_iff.mpr ⟨rest, rfl⟩)
  cases hopens with
  | unmarked hline =>
    cases hline with
    | none => exact .inl (hplain (.inl rfl) (.unmarked (.none _)))
    | fed hbody =>
      exact .inl (Opens.leads (.unmarked (.fed hbody)) (by simp) (by simp [byteOrderMark]))
    | last hbody =>
      exact .inr ⟨rfl, Opens.leads (.unmarked (.fed hbody)) (by simp) (by simp [byteOrderMark])⟩
  | marked hline =>
    cases hline with
    | none => exact .inl (hplain (.inr rfl) (.marked (.none _)))
    | fed hbody => exact .inl (Opens.leads (.marked (.fed hbody)) (by simp) (by simp))
    | last hbody => exact .inr ⟨rfl, Opens.leads (.marked (.fed hbody)) (by simp) (by simp)⟩

end Trivia

/-- **To read a source is to divide what follows its whole prologue**, from the position behind
it. -/
theorem tokenize_of_leads (names : Namespaces) {front rest : List Char}
    (h : Trivia.Leads front rest) :
    let reading := tokenize names (String.ofList (front ++ rest))
    reading.tokens = (divide names rest).tokens (Position.after front) ∧
      reading.diagnostics = (divide names rest).diagnostics (Position.after front) := by
  intro reading
  have heq := tokenize_eq names (String.ofList (front ++ rest))
  simpa only [String.toList_ofList, Trivia.text_prologue_of_leads h, Trivia.content_of_leads h]
    using heq

/-- A plain text has no prologue: it is read from the origin. -/
theorem tokenize_of_plain (names : Namespaces) {cs : List Char} (h : Trivia.Plain cs) :
    let reading := tokenize names (String.ofList cs)
    reading.tokens = (divide names cs).tokens Position.origin ∧
      reading.diagnostics = (divide names cs).diagnostics Position.origin := by
  have hleads : Trivia.Leads [] cs := h.leads
  have hread := tokenize_of_leads names hleads
  rwa [List.nil_append] at hread

/-- A lexer passes the whole prologue ahead of it. -/
theorem Lexer.openSource_of_leads {l : Lexer} (hl : l.opened = false) {front rest : List Char}
    (hahead : l.cursor.ahead = front ++ rest) (h : Trivia.Leads front rest) :
    l.openSource.lexer.cursor.ahead = rest ∧
      l.openSource.lexer.cursor.pos = l.cursor.pos.advance front := by
  have hcursor : l.openSource.lexer.cursor = l.cursor.advanceBy front.length := by
    simp only [openSource, hl, Bool.false_eq_true, ite_false, hahead,
      Trivia.text_prologue_of_leads h]
  rw [hcursor]
  exact ⟨Cursor.ahead_advanceBy_length hahead, Cursor.pos_advanceBy_length hahead⟩

end Lexis
