import Lexis.Proofs.Progress
import Lexis.Proofs.Prologue
import Lexis.Proofs.Separation

/-!
# Two characters of lookahead

What has been read depends on the text up to the end of the last token and on **two characters**
more. Two lexers that stand at the same place in front of the same text `q`, with different texts
`r` and `r'` behind it, `Agree`; a call that ends inside `q` gives both of them the same token and
the same reports, and they agree again (`Agree.next`), provided that the first two characters of
`r` and `r'` are the same. By induction this holds for every run up to the end of `q`
(`Agree.run`), and the prologue is settled by two characters as well (`Trivia.Leads.of_take`).
-/

namespace Lexis

/-- A text is cut in only one way at a byte offset. -/
theorem Text.append_inj_of_byteLength {a b c d : List Char} (h : a ++ b = c ++ d)
    (hlength : byteLength a = byteLength c) : a = c ∧ b = d := by
  have hdrop := dropBytes_append a b
  rw [h, hlength, dropBytes_append] at hdrop
  obtain rfl := Option.some.inj hdrop
  exact ⟨List.append_cancel_right h, rfl⟩

/-- What is the same in the first two characters stays so behind a common front. -/
private theorem take_two_append (q : List Char) {r r' : List Char} (h : r'.take 2 = r.take 2) :
    (q ++ r').take 2 = (q ++ r).take 2 := by
  have htake : ∀ n ≤ 2, r'.take n = r.take n := by
    intro n hn
    rw [← Nat.min_eq_left hn, ← List.take_take, h, List.take_take]
  rw [List.take_append, List.take_append, htake _ (Nat.sub_le 2 _)]

namespace Lexer

/-! ### Calls and tokens -/

/-- The calls of a lexer are those of the lexer behind the prologue, which the first call passes
anyway. -/
private theorem next_after_openSource (k : Nat) (l : Lexer) :
    (l.after k).next.value = (l.openSource.lexer.after k).next.value ∧
      (l.after k).next.diagnostics = (l.openSource.lexer.after k).next.diagnostics := by
  have hnext := next_openSource l
  cases k with
  | zero => exact ⟨by rw [after, hnext]; rfl, by rw [after, hnext]; rfl⟩
  | succ k =>
    have hlexer : l.next.lexer = l.openSource.lexer.next.lexer := by rw [hnext]
    rw [after, after, hlexer]
    exact ⟨rfl, rfl⟩

/-- Up to the end of the input the tokens are the values of the calls, in the same order. -/
private theorem getElem?_drain {l : Lexer} {j : Nat}
    (h : ∀ k < j, (l.after k).next.value.isEof = false) :
    l.drain.value[j]? = some (l.after j).next.value := by
  induction j generalizing l with
  | zero =>
    rcases heof : l.next.value.isEof with _ | _
    · rw [(drain_of_not_isEof heof).1]
      rfl
    · rw [(drain_of_isEof heof).1]
      rfl
  | succ j ih =>
    have hfirst : l.next.value.isEof = false := h 0 (Nat.succ_pos j)
    rw [(drain_of_not_isEof hfirst).1, List.getElem?_cons_succ]
    exact ih fun k hk => h (k + 1) (Nat.succ_lt_succ hk)

/-- A token is the value of its call, and the end of the input was not found before, since nothing
follows the end token. -/
private theorem eq_of_getElem?_drain {l : Lexer} {j : Nat} {t : Token}
    (h : l.drain.value[j]? = some t) :
    t = (l.after j).next.value ∧ ∀ k < j, (l.after k).next.value.isEof = false := by
  obtain ⟨n, -, m, hexits⟩ := exits_turn l
  obtain ⟨-, hvalue, hbefore, -⟩ := drain_of_exits hexits
  rw [hvalue, List.getElem?_map] at h
  obtain ⟨i, hi, rfl⟩ := Option.map_eq_some_iff.mp h
  obtain ⟨hlt, rfl⟩ := List.getElem?_eq_some_iff.mp hi
  rw [List.length_range] at hlt
  rw [List.getElem_range]
  exact ⟨rfl, fun k hk => hbefore k (by omega)⟩

/-- A token ends where the lexer stands behind it, as trivia are passed in front of tokens only. -/
private theorem stop_next {l : Lexer} (hopened : l.opened = true)
    (heof : l.next.value.isEof = false) :
    l.next.value.span.stop = l.next.lexer.cursor.pos.offset := by
  rcases hrest : (Trivia.scan l.cursor.ahead).rest with _ | ⟨c, rest⟩
  · obtain ⟨hvalue, -, -⟩ := next_of_rest_nil hopened hrest
    rw [hvalue] at heof
    cases heof
  · obtain ⟨hvalue, -, -, hpos⟩ := next_of_rest_cons hopened hrest
    rw [hvalue, hpos]
    rfl

/-! ### Two runs -/

/-- Two lexers stand at the same place in front of the text `q`; behind it the texts differ. -/
structure Agree (q r r' : List Char) (l l' : Lexer) : Prop where
  names : l'.names = l.names
  opened : l.opened = true
  opened' : l'.opened = true
  pos : l'.cursor.pos = l.cursor.pos
  ahead : l.cursor.ahead = q ++ r
  ahead' : l'.cursor.ahead = q ++ r'

/-- **One call.** A token that ends before `r` is read by both, with the same reports: its lexeme
and the gap in front look no further than two characters beyond their own end. -/
theorem Agree.next {q r r' : List Char} {l l' : Lexer} (h : Agree q r r' l l')
    (hr : r'.take 2 = r.take 2) (heof : l.next.value.isEof = false)
    (hsuffix : r <:+ l.next.lexer.cursor.ahead) :
    l'.next.value = l.next.value ∧ l'.next.diagnostics = l.next.diagnostics ∧
      ∃ q', Agree q' r r' l.next.lexer l'.next.lexer := by
  rcases hrest : (Trivia.scan l.cursor.ahead).rest with _ | ⟨c, rest⟩
  · obtain ⟨hvalue, -, -⟩ := next_of_rest_nil h.opened hrest
    rw [hvalue] at heof
    cases heof
  · obtain ⟨hvalue, hdiag, hahead, hpos⟩ := next_of_rest_cons h.opened hrest
    set gap := Trivia.scan l.cursor.ahead with hgap
    set x := Lexeme.scan l.names c rest with hx
    rw [hahead] at hsuffix
    obtain ⟨q', hq'⟩ := hsuffix
    -- the gap and the lexeme lie in `q`, and `q'` is what they leave of it:
    have hq : q = gap.text ++ (x.text ++ q') := by
      have hcut := Trivia.scan_append l.cursor.ahead
      rw [← hgap, hrest, ← Lexeme.scan_append l.names c rest, ← hx, ← hq', h.ahead] at hcut
      have hright : q ++ r = gap.text ++ (x.text ++ q') ++ r := by
        rw [← hcut]
        simp only [List.append_assoc]
      exact List.append_cancel_right hright
    have hlike : SeparatesLike x.rest (q' ++ r') := by
      rw [← hq']
      exact .of_take (take_two_append q' hr)
    have hopen : x.isOpen = true → q' ++ r' = [] := by
      intro ho
      rw [Lexeme.rest_of_isOpen ho] at hq'
      obtain ⟨rfl, rfl⟩ := List.append_eq_nil_iff.mp hq'
      simpa using hr
    obtain ⟨tail, hgap', hscan⟩ := scan_gap_of_separatesLike l.names hrest hlike hopen
    have hahead' : l'.cursor.ahead = gap.text ++ (x.text ++ (q' ++ r')) := by
      rw [h.ahead', hq]
      simp only [List.append_assoc]
    have hclosed : gap.unclosed = none := Trivia.unclosed_of_rest_eq_cons hrest
    rw [← hgap, ← hx, ← hahead'] at hgap'
    have hrest' : (Trivia.scan l'.cursor.ahead).rest = c :: tail := by rw [hgap']
    obtain ⟨hvalue', hdiag', hnext', hpos'⟩ := next_of_rest_cons h.opened' hrest'
    rw [hgap', h.names, hscan, h.pos] at hvalue' hdiag' hpos'
    rw [h.names, hscan] at hnext'
    refine ⟨?_, ?_, q', ?_, opened_next l, opened_next l', ?_, ?_, hnext'⟩
    · rw [hvalue', hvalue]
      rfl
    · rw [hdiag', hdiag]
      simp only [Gap.diagnostics, hclosed]
      rfl
    · rw [names_next, names_next, h.names]
    · rw [hpos', hpos]
    · rw [hahead, hq']

/-- **A whole run.** By induction on the number of calls: the lexers agree before each of them. -/
theorem Agree.run {q r r' : List Char} {l l' : Lexer} {i : Nat} (h : Agree q r r' l l')
    (hr : r'.take 2 = r.take 2) (heof : ∀ k ≤ i, (l.after k).next.value.isEof = false)
    (hsuffix : r <:+ (l.after (i + 1)).cursor.ahead) :
    ∀ j ≤ i, (l'.after j).next.value = (l.after j).next.value ∧
      (l'.after j).next.diagnostics = (l.after j).next.diagnostics := by
  induction i generalizing q l l' with
  | zero =>
    intro j hj
    obtain rfl := Nat.le_zero.mp hj
    obtain ⟨hvalue, hdiag, -⟩ := h.next hr (heof 0 le_rfl) hsuffix
    exact ⟨hvalue, hdiag⟩
  | succ i ih =>
    have hfirst : r <:+ l.next.lexer.cursor.ahead :=
      hsuffix.trans (suffix_after (i + 1) l.next.lexer)
    obtain ⟨hvalue, hdiag, q', hagree⟩ := h.next hr (heof 0 (Nat.zero_le _)) hfirst
    intro j hj
    cases j with
    | zero => exact ⟨hvalue, hdiag⟩
    | succ j =>
      exact ih hagree (fun k hk => heof (k + 1) (by omega)) hsuffix j (by omega)

end Lexer

/-- **The start of two runs.** Two sources with the same prologue, and a common text behind it. That
the prologue is whole is decided by the two characters behind it. -/
theorem Lexer.agree_start (names : Namespaces) {front q r r' : List Char}
    (h : Trivia.Leads front (q ++ r)) (hne : q ++ r ≠ []) (hr : r'.take 2 = r.take 2) :
    Agree q r r' (start names (String.ofList (front ++ q ++ r))).openSource.lexer
      (start names (String.ofList (front ++ q ++ r'))).openSource.lexer := by
  have h' : Trivia.Leads front (q ++ r') := h.of_take hne (take_two_append q hr)
  rw [List.append_assoc, List.append_assoc]
  obtain ⟨hahead, hpos⟩ := openSource_of_leads
    (l := start names (String.ofList (front ++ (q ++ r)))) rfl String.toList_ofList h
  obtain ⟨hahead', hpos'⟩ := openSource_of_leads
    (l := start names (String.ofList (front ++ (q ++ r')))) rfl String.toList_ofList h'
  refine ⟨rfl, rfl, rfl, ?_, hahead, hahead'⟩
  rw [hpos, hpos']
  rfl

/-- Behind the call that reads a token up to the end of `p`, the lexer stands in front of `r`, as a
text is cut in only one way at an offset. -/
private theorem Lexer.ahead_of_stop {l : Lexer} {p r : List Char} (hopened : l.opened = true)
    (hsource : l.cursor.source = p ++ r) (heof : l.next.value.isEof = false)
    (hstop : l.next.value.span.stop = Text.byteLength p) : l.next.lexer.cursor.ahead = r := by
  obtain ⟨text, hpass, -⟩ := exists_passes_next l
  have hcut : l.next.lexer.cursor.behind.reverse ++ l.next.lexer.cursor.ahead = p ++ r :=
    hpass.source.trans hsource
  have hlength : Text.byteLength l.next.lexer.cursor.behind.reverse = Text.byteLength p := by
    rw [← hstop, stop_next hopened heof, l.next.lexer.cursor.located, Position.offset_after]
  exact (Text.append_inj_of_byteLength hcut hlength).2

private theorem Lexer.source_openSource_start (names : Namespaces) (cs : List Char) :
    (start names (String.ofList cs)).openSource.lexer.cursor.source = cs := by
  obtain ⟨text, hpass⟩ := passes_openSource (start names (String.ofList cs))
  exact hpass.source.trans String.toList_ofList

/-- If some calls bring a lexer in front of `r`, the prologue lies in what stands before, since the
first call passes it. -/
private theorem Lexer.exists_leads (names : Namespaces) {p r : List Char} {k : Nat}
    (h : ((start names (String.ofList (p ++ r))).openSource.lexer.after k).cursor.ahead = r) :
    ∃ front q, p = front ++ q ∧ Trivia.Leads front (q ++ r) ∧
      (start names (String.ofList (p ++ r))).openSource.lexer.cursor.ahead = q ++ r := by
  obtain ⟨happ, -⟩ := Trivia.opens_prologue (p ++ r)
  have hleads := Trivia.leads_prologue (p ++ r)
  obtain ⟨hcontent, -⟩ := openSource_of_leads (l := start names (String.ofList (p ++ r))) rfl
    (String.toList_ofList.trans happ.symm) hleads
  obtain ⟨q, hq⟩ := suffix_after k (start names (String.ofList (p ++ r))).openSource.lexer
  rw [h, hcontent] at hq
  refine ⟨(Trivia.prologue (p ++ r)).text, q, ?_, hq ▸ hleads, hcontent.trans hq.symm⟩
  rw [← hq, ← List.append_assoc] at happ
  exact (List.append_cancel_right happ).symm

/-- **Two characters of lookahead.** If a token of the source `p ++ r` ends where `p` does, the
tokens up to this one and the reports made while they are read stay the same whatever takes the
place of `r`, as long as its first two characters are those of `r`. -/
theorem tokenize_of_take_two (names : Namespaces) {p r r' : List Char} {i : Nat} {t : Token}
    (ht : (tokenize names (String.ofList (p ++ r))).tokens[i]? = some t) (heof : t.isEof = false)
    (hstop : t.span.stop = Text.byteLength p) (hr : r'.take 2 = r.take 2) :
    let s := String.ofList (p ++ r)
    let s' := String.ofList (p ++ r')
    ∀ j ≤ i, (tokenize names s').tokens[j]? = (tokenize names s).tokens[j]? ∧
      ((Lexer.start names s').after j).next.diagnostics =
        ((Lexer.start names s).after j).next.diagnostics := by
  intro s s'
  set l := (Lexer.start names s).openSource.lexer with hl
  set l' := (Lexer.start names s').openSource.lexer with hl'
  have htokens : (tokenize names s).tokens = l.drain.value := (Lexer.drain_openSource _).1
  have htokens' : (tokenize names s').tokens = l'.drain.value := (Lexer.drain_openSource _).1
  rw [htokens] at ht
  obtain ⟨rfl, hbefore⟩ := Lexer.eq_of_getElem?_drain ht
  have hcalls : ∀ k ≤ i, (l.after k).next.value.isEof = false := by
    intro k hk
    rcases Nat.lt_or_eq_of_le hk with hlt | rfl
    · exact hbefore k hlt
    · exact heof
  have hahead : (l.after (i + 1)).cursor.ahead = r := by
    have hsource : l.cursor.source = p ++ r := Lexer.source_openSource_start names _
    rw [Lexer.after_succ]
    exact Lexer.ahead_of_stop (Lexer.opened_after i rfl)
      ((Lexer.source_after i l).trans hsource) heof hstop
  obtain ⟨front, q, rfl, hleads, hfirst⟩ := Lexer.exists_leads names hahead
  have hne : q ++ r ≠ [] := by
    have hlt := Lexer.ahead_next_lt l (hcalls 0 (Nat.zero_le i))
    rw [hl, hfirst] at hlt
    exact List.ne_nil_of_length_pos (by omega)
  have hagree : Lexer.Agree q r r' l l' := Lexer.agree_start names hleads hne hr
  have hrun := hagree.run hr hcalls (hahead ▸ List.suffix_refl r)
  intro j hj
  obtain ⟨hvalue, hdiag⟩ := hrun j hj
  constructor
  · have hcalls' : ∀ k < j, (l'.after k).next.value.isEof = false := by
      intro k hk
      rw [(hrun k (by omega)).1]
      exact hcalls k (by omega)
    rw [htokens, htokens', Lexer.getElem?_drain hcalls',
      Lexer.getElem?_drain fun k hk => hcalls k (by omega), hvalue]
  · calc ((Lexer.start names s').after j).next.diagnostics
        = (l'.after j).next.diagnostics := (Lexer.next_after_openSource j _).2
      _ = (l.after j).next.diagnostics := hdiag
      _ = ((Lexer.start names s).after j).next.diagnostics :=
        (Lexer.next_after_openSource j _).2.symm

/-- The name in front of `!=` is read as it is because of the two characters behind it. -/
theorem tokenize_of_take_two_name :
    let s := String.ofList (['a'] ++ ['!', '=', '"'])
    let s' := String.ofList (['a'] ++ ['!', '=', 'b'])
    (tokenize .empty s).tokens[0]? = some ⟨.ident, "a", ⟨0, 1, 1, 1⟩⟩ ∧
      (tokenize .empty s').tokens[0]? = (tokenize .empty s).tokens[0]? ∧
      ((Lexer.start .empty s').after 0).next.diagnostics =
        ((Lexer.start .empty s).after 0).next.diagnostics := by
  intro s s'
  have hname : (tokenize .empty s).tokens[0]? = some ⟨.ident, "a", ⟨0, 1, 1, 1⟩⟩ := by
    decide +kernel
  have hr : ['!', '=', 'b'].take 2 = ['!', '=', '"'].take 2 := rfl
  exact ⟨hname, tokenize_of_take_two .empty hname rfl (by decide) hr 0 le_rfl⟩

end Lexis
