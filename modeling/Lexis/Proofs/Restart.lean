import Lexis.Proofs.Placement
import Lexis.Proofs.Progress
import Lexis.Proofs.Prologue

/-!
# Reading on from the middle of a source

Between two tokens a lexer keeps nothing in mind but where it stands. The tokens and reports that
follow are therefore those of **a fresh reading of the text ahead**, moved to where that text stands
(`Lexer.carries_drain`); and a prologue does nothing but move what follows
(`carries_of_leads`). There is one way to tell the two readings apart: only the fresh one would take
a byte-order mark or a `#!` line at its front for a prologue.
-/

namespace Lexis

namespace Lexer

private theorem dropBytes_source (l : Lexer) :
    Text.dropBytes l.cursor.pos.offset l.cursor.source = some l.cursor.ahead := by
  rw [l.cursor.located, Position.offset_after]
  exact Text.dropBytes_append _ _

end Lexer

/-- **A lexer reads on as a fresh one would**, from where it stands. The position of the text ahead
has been counted by its cursor, and the source behind is not looked at again. -/
theorem Lexer.carries_drain (l : Lexer) (hopened : l.opened = true)
    (hshort : l.cursor.source.length < 2 ^ 32 - 1) (hplain : Trivia.Plain l.cursor.ahead) :
    let fresh := tokenize l.names (String.ofList l.cursor.ahead)
    l.cursor.pos.shift.Carries fresh.tokens fresh.diagnostics l.drain.value
      l.drain.diagnostics := by
  intro fresh
  obtain ⟨htokens, hdiagnostics⟩ := tokenize_of_plain l.names hplain
  obtain ⟨hvalue, hreports⟩ := l.drain_of_opened hopened
  rw [htokens, hdiagnostics, hvalue, hreports, l.cursor.located]
  exact carries_divide l.names hshort

/-- **A prologue moves what follows** and does nothing else, as the text behind it has no prologue
of its own. -/
theorem carries_of_leads (names : Namespaces) {front rest : List Char}
    (h : Trivia.Leads front rest) (hplain : Trivia.Plain rest)
    (hshort : (front ++ rest).length < 2 ^ 32 - 1) :
    let fresh := tokenize names (String.ofList rest)
    let led := tokenize names (String.ofList (front ++ rest))
    (Position.after front).shift.Carries fresh.tokens fresh.diagnostics led.tokens
      led.diagnostics := by
  intro fresh led
  obtain ⟨htokens, hdiagnostics⟩ := tokenize_of_plain names hplain
  obtain ⟨htokens', hdiagnostics'⟩ := tokenize_of_leads names h
  rw [htokens, hdiagnostics, htokens', hdiagnostics']
  exact carries_divide names hshort

/-- A mark, a `#!` line, or both are a whole prologue in front of a plain text. -/
private theorem Trivia.leads_of_mem {line front rest : List Char} (hline : '\n' ∉ line)
    (hplain : Plain rest)
    (hfront : front ∈ [[byteOrderMark], '#' :: '!' :: (line ++ ['\n']),
      byteOrderMark :: '#' :: '!' :: (line ++ ['\n'])]) : Leads front rest := by
  simp only [List.mem_cons, List.not_mem_nil, or_false] at hfront
  rcases hfront with rfl | rfl | rfl
  · exact ⟨.marked (.none rest), fun h => absurd h (List.cons_ne_nil _ _), fun _ => hplain.2⟩
  · exact Opens.leads (.unmarked (.fed hline)) (by simp) (by simp [byteOrderMark])
  · exact Opens.leads (.marked (.fed hline)) (by simp) (by simp)

/-- **Reading can start again at every token**, in a source that is short enough for its lines and
columns to be counted. After one call or more the text ahead is what the source holds from the
lexer's offset on, and the calls that follow find tokens up to the end token, which is the last of
those that are read and no other. If the text ahead is plain, these tokens, with the end token, and
the reports that come with them are those of the text ahead, read by itself and moved to the
position of the lexer. Likewise a byte-order mark, a `#!` line with its line feed, or both in front
of a plain text move its tokens and reports to the position behind them. -/
theorem tokenize_restart (names : Namespaces) :
    (∀ (source : String) (k : Nat), source.length < 2 ^ 32 - 1 → 1 ≤ k →
      let l := (Lexer.start names source).after k
      Text.dropBytes l.cursor.pos.offset source.toList = some l.cursor.ahead ∧
        (∃ before last, l.drain.value = before ++ [last] ∧ last.isEof = true ∧
          ∀ t ∈ before, t.isEof = false) ∧
        (Trivia.Plain l.cursor.ahead →
          let fresh := tokenize names (String.ofList l.cursor.ahead)
          l.cursor.pos.shift.Carries fresh.tokens fresh.diagnostics l.drain.value
            l.drain.diagnostics)) ∧
      ∀ line r : List Char, '\n' ∉ line → Trivia.Plain r →
        ∀ front ∈ [[Trivia.byteOrderMark], '#' :: '!' :: (line ++ ['\n']),
          Trivia.byteOrderMark :: '#' :: '!' :: (line ++ ['\n'])],
        (front ++ r).length < 2 ^ 32 - 1 →
          let fresh := tokenize names (String.ofList r)
          let led := tokenize names (String.ofList (front ++ r))
          (Position.after front).shift.Carries fresh.tokens fresh.diagnostics led.tokens
            led.diagnostics := by
  constructor
  · intro source k hshort hk l
    have hsource : l.cursor.source = source.toList := Lexer.source_after k _
    refine ⟨hsource ▸ l.dropBytes_source, l.exists_drain_eq_concat, fun hplain => ?_⟩
    have hnames : l.names = names := Lexer.names_after k _
    have hopened : l.opened = true := by
      obtain ⟨j, rfl⟩ := Nat.exists_eq_add_of_le' hk
      exact Lexer.opened_after j (Lexer.opened_next _)
    have hcarries := l.carries_drain hopened (by rwa [hsource, String.length_toList]) hplain
    rwa [hnames] at hcarries
  · intro line r hline hplain front hfront hshort
    exact carries_of_leads names (Trivia.leads_of_mem hline hplain hfront) hplain hshort

/-- Behind the first of two names stand a name outside ASCII and, on the next line, a string with a
flaw; a `#!` line stands in front of a name. -/
theorem tokenize_restart_second_name :
    let l := (Lexer.start .empty "a é\n\"\\q\"").after 1
    let rest := tokenize .empty (String.ofList l.cursor.ahead)
    let name := tokenize .empty (String.ofList ['b'])
    let led := tokenize .empty (String.ofList (['#', '!', 'x', '\n'] ++ ['b']))
    Trivia.Plain l.cursor.ahead ∧
      l.cursor.pos.shift.Carries rest.tokens rest.diagnostics l.drain.value l.drain.diagnostics ∧
      (Position.after ['#', '!', 'x', '\n']).shift.Carries name.tokens name.diagnostics led.tokens
        led.diagnostics := by
  intro l rest name led
  have hplain : Trivia.Plain l.cursor.ahead := by decide +kernel
  obtain ⟨hafter, hprologue⟩ := tokenize_restart .empty
  have hled := hprologue ['x'] ['b'] (by decide) (by decide) ['#', '!', 'x', '\n'] (by decide)
    (by decide)
  exact ⟨hplain, (hafter "a é\n\"\\q\"" 1 (by decide) le_rfl).2.2 hplain, hled⟩

end Lexis
