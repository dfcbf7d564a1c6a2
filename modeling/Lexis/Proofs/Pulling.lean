import Lexis.Proofs.Calls

/-!
# Taking tokens in any way

Tokens can be asked for with or without the end token, and trivia can be passed at any time in
between. None of this changes **what is still to come**: `Lexer.upcoming l i` is the token that the
next call but `i` will find, and passing trivia leaves it as it is (`Lexer.upcoming_skip`), since a
second pass over the same trivia does nothing (`Lexer.skip_skip`).

The end of the input is absorbing. Behind it a lexer is *spent* (`Lexer.Spent`): a call finds the
same end token again, reports nothing and leaves the cursor where it is (`Lexer.Spent.call`). A
comment that is not closed is therefore reported once, by the call that passes it, and the reports
of all calls together are a front part of the reports of the source
(`Lexer.diagnostics_drain_call`).
-/

namespace Lexis

namespace Lexer

variable {l : Lexer}

/-! ### Trivia is passed once -/

/-- Where no gap starts, nothing is passed, and the lexer is the one it was: not even the start of
the current token moves. -/
theorem skip_of_clear (hopened : l.opened = true) (hclear : Trivia.Clear l.cursor.ahead) :
    l.skip = { value := (), lexer := l } := by
  rw [skip_of_opened hopened, Trivia.scan_of_clear hclear]
  rfl

/-- Behind a gap no other gap starts, whether or not the prologue has been passed with it. -/
theorem clear_ahead_skip (l : Lexer) : Trivia.Clear l.skip.lexer.cursor.ahead := by
  have hahead : l.skip.lexer.cursor.ahead = (Trivia.scan l.openSource.lexer.cursor.ahead).rest :=
    ahead_pass (Trivia.scan_append _).symm
  rw [hahead]
  exact Trivia.clear_rest_scan _

/-- **Passing trivia again does nothing**, so callers need not know whether it has been passed. -/
theorem skip_skip (l : Lexer) : l.skip.lexer.skip = { value := (), lexer := l.skip.lexer } :=
  skip_of_clear (opened_skip l) (clear_ahead_skip l)

/-- A token is found as if the trivia in front of it had been passed before. The report on a gap is
made by whichever call passes it. -/
private theorem next_skip (l : Lexer) :
    l.next.value = l.skip.lexer.next.value ∧ l.next.lexer = l.skip.lexer.next.lexer ∧
      l.next.diagnostics = l.skip.diagnostics ++ l.skip.lexer.next.diagnostics := by
  simp only [next, skip_skip, List.nil_append, and_self]

/-! ### Behind the end of the input -/

/-- The prologue is behind and nothing is ahead. -/
structure Spent (l : Lexer) : Prop where
  opened : l.opened = true
  ahead : l.cursor.ahead = []

namespace Spent

theorem skip (h : l.Spent) : l.skip = { value := (), lexer := l } :=
  skip_of_clear h.opened (by rw [h.ahead]; trivial)

/-- Behind the end of the input only the end token is found. -/
theorem next (h : l.Spent) :
    l.next = { value := Token.eof (Span.point l.cursor.pos), lexer := l.begin } := by
  have hahead : l.begin.cursor.ahead = [] := h.ahead
  unfold Lexer.next
  rw [h.skip]
  simp only [token, hahead]
  rfl

theorem begin (h : l.Spent) : l.begin.Spent :=
  ⟨h.opened, h.ahead⟩

end Spent

/-- A lexer that has found the end of the input is spent: what stood in front of the end was a gap,
which has been passed. -/
private theorem spent_of_isEof (h : l.next.value.isEof = true) : l.next.lexer.Spent := by
  obtain ⟨-, -, ⟨-, hahead⟩ | ⟨heof, -⟩⟩ := exists_passes_next l
  · exact ⟨opened_next l, hahead⟩
  · rw [heof] at h
    cases h

/-- **The end of the input is found again and again**, as the same token at the same place. -/
theorem value_next_of_isEof (h : l.next.value.isEof = true) :
    l.next.lexer.next.value = l.next.value := by
  have hspent : l.skip.lexer.Spent := by
    refine ⟨opened_skip l, ?_⟩
    rcases hahead : l.skip.lexer.cursor.ahead with _ | ⟨c, rest⟩
    · rfl
    · rw [(next_of_ahead_skip hahead).1, Lexeme.isEof_token_scan] at h
      cases h
  obtain ⟨hvalue, hlexer, -⟩ := next_skip l
  rw [hlexer, hvalue, hspent.next]
  exact congrArg Step.value hspent.begin.next

/-! ### What is still to come -/

/-- The token that the next call but `i` finds. -/
def upcoming (l : Lexer) (i : Nat) : Token :=
  (l.after i).next.value

private theorem upcoming_next (l : Lexer) (i : Nat) :
    l.next.lexer.upcoming i = l.upcoming (i + 1) := rfl

/-- **Passing trivia does not change what is to come**, since the next call would have passed it in
front of its token. -/
theorem upcoming_skip (l : Lexer) (i : Nat) : l.skip.lexer.upcoming i = l.upcoming i := by
  obtain ⟨hvalue, hlexer, -⟩ := next_skip l
  cases i with
  | zero => exact hvalue.symm
  | succ i => rw [← upcoming_next, ← hlexer, upcoming_next]

/-- Once the end of the input is to come, nothing else is. By induction from where it is found
first. -/
private theorem upcoming_of_isEof {n : Nat} (h : (l.upcoming n).isEof = true) {i : Nat}
    (hi : n ≤ i) : l.upcoming i = l.upcoming n := by
  induction i, hi using Nat.le_induction with
  | base => rfl
  | succ i _ ih =>
    have heof : (l.after i).next.value.isEof = true := by
      rw [← h, ← ih]
      rfl
    calc l.upcoming (i + 1) = (l.after i).next.lexer.next.value := by rw [upcoming, after_succ]
      _ = l.upcoming i := value_next_of_isEof heof
      _ = l.upcoming n := ih

/-- **What is to come are the tokens up to the end of the input**, and then the last of them for
ever. The calls up to the end are as many as there are tokens, and any call behind them finds the
end once more. -/
theorem exists_upcoming (l : Lexer) :
    ∃ before last, l.drain.value = before ++ [last] ∧ last.isEof = true ∧
      (∀ t ∈ before, t.isEof = false) ∧ ∀ i, l.upcoming i = l.drain.value.getD i last := by
  obtain ⟨n, -, m, hexits⟩ := exits_turn l
  obtain ⟨-, hvalue, hbefore, hlast⟩ := drain_of_exits hexits
  have hmap : l.drain.value = (List.range (n + 1)).map l.upcoming := hvalue
  refine ⟨(List.range n).map l.upcoming, l.upcoming n, ?_, hlast, fun t ht => ?_, fun i => ?_⟩
  · rw [hmap, List.range_succ, List.map_append]
    rfl
  · obtain ⟨k, hk, rfl⟩ := List.mem_map.mp ht
    exact hbefore k (List.mem_range.mp hk)
  · rw [hmap]
    rcases Nat.lt_or_ge i (n + 1) with hi | hi
    · simp [List.getD_eq_getElem?_getD, List.getElem?_range hi]
    · have hnone : ((List.range (n + 1)).map l.upcoming)[i]? = none := by
        rw [List.getElem?_eq_none_iff, List.length_map, List.length_range]
        exact hi
      rw [List.getD_eq_getElem?_getD, hnone, Option.getD_none]
      exact upcoming_of_isEof hlast (by omega)

end Lexer

/-! ### Pulling -/

namespace Call

/-- The calls that take tokens one after the other, and the one that passes trivia in between. -/
def pulls : List Call :=
  [next, next?, skip]

/-- What a call that begins a token is answered with if it finds the token `t`: one of them has no
answer at the end of the input. -/
def answer (c : Call) (t : Token) : Option Token :=
  if c = next? ∧ t.isEof = true then none else some t

end Call

namespace Lexer

variable {l : Lexer} {c : Call}

/-- **All that a pull does**: it finds the next token, or it passes the trivia in front of it.
Everything else about pulls follows from these two cases. -/
theorem call_cases (hc : c ∈ Call.pulls) :
    (c.begins = true ∧ (l.call c).value = c.answer l.next.value ∧
        (l.call c).lexer = l.next.lexer ∧ (l.call c).diagnostics = l.next.diagnostics) ∨
      (c.begins = false ∧ (l.call c).lexer = l.skip.lexer ∧
        (l.call c).diagnostics = l.skip.diagnostics) := by
  simp only [Call.pulls, List.mem_cons, List.not_mem_nil, or_false] at hc
  rcases hc with rfl | rfl | rfl
  · exact .inl ⟨rfl, rfl, rfl, rfl⟩
  · refine .inl ⟨rfl, ?_, rfl, rfl⟩
    simp [call, next?, Call.answer]
  · exact .inr ⟨rfl, rfl, rfl⟩

/-- **A pull behind the end of the input** leaves the cursor where it is and reports nothing, and
the lexer is spent as before. -/
theorem Spent.call (h : l.Spent) (hc : c ∈ Call.pulls) :
    (l.call c).lexer.cursor = l.cursor ∧ (l.call c).diagnostics = [] ∧
      (l.call c).lexer.Spent := by
  rcases call_cases (l := l) hc with ⟨-, -, hlexer, hreports⟩ | ⟨-, hlexer, hreports⟩
  · rw [hlexer, hreports, h.next]
    exact ⟨rfl, rfl, h.begin⟩
  · rw [hlexer, hreports, h.skip]
    exact ⟨rfl, rfl, h⟩

/-- The end of the input is found with nothing left to report. -/
private theorem Spent.diagnostics_drain (h : l.Spent) : l.drain.diagnostics = [] := by
  have heof : l.next.value.isEof = true := by
    rw [h.next]
    rfl
  rw [(drain_of_isEof heof).2.1, h.next]

/-- **What a pull reports comes off what is still to be reported.** A pull that finds the end of the
input takes all that is left. -/
theorem diagnostics_drain_call (hc : c ∈ Call.pulls) :
    l.drain.diagnostics = (l.call c).diagnostics ++ (l.call c).lexer.drain.diagnostics := by
  rcases call_cases (l := l) hc with ⟨-, -, hlexer, hreports⟩ | ⟨-, hlexer, hreports⟩
  · rw [hlexer, hreports]
    rcases heof : l.next.value.isEof with _ | _
    · exact (drain_of_not_isEof heof).2.1
    · rw [(drain_of_isEof heof).2.1, (spent_of_isEof heof).diagnostics_drain, List.append_nil]
  · rw [hlexer, hreports]
    obtain ⟨hvalue, hmore, hfirst⟩ := next_skip l
    rcases heof : l.next.value.isEof with _ | _
    · have heof' : l.skip.lexer.next.value.isEof = false := hvalue ▸ heof
      rw [(drain_of_not_isEof heof).2.1, (drain_of_not_isEof heof').2.1, hfirst, hmore,
        List.append_assoc]
    · have heof' : l.skip.lexer.next.value.isEof = true := hvalue ▸ heof
      rw [(drain_of_isEof heof).2.1, (drain_of_isEof heof').2.1, hfirst]

end Lexer

namespace Session

variable {s : Session} {calls : List Call}

/-- What the calls that begin a token are answered with, in their order. -/
def answers (s : Session) : List Call → List (Option Token)
  | [] => []
  | c :: calls =>
    let more := (s.step c).answers calls
    if c.begins then (s.lexer.call c).value :: more else more

/-- **The tokens are answered with in their order**, whatever is passed in between: the calls that
ask are numbered, and each is answered with the token of its number. -/
theorem answers_eq (hcalls : calls ⊆ Call.pulls) :
    s.answers calls =
      (calls.filter Call.begins).mapIdx fun i c => c.answer (s.lexer.upcoming i) := by
  induction calls generalizing s with
  | nil => rfl
  | cons c calls ih =>
    obtain ⟨hc, hcalls⟩ := List.cons_subset.mp hcalls
    have ih := ih (s := s.step c) hcalls
    have hlexer : (s.step c).lexer = (s.lexer.call c).lexer := rfl
    rcases Lexer.call_cases (l := s.lexer) hc with ⟨hbegins, hvalue, hnext, -⟩ | ⟨hbegins, hskip, -⟩
    · rw [hlexer, hnext] at ih
      rw [answers, if_pos hbegins, ih, hvalue, List.filter_cons_of_pos hbegins, List.mapIdx_cons]
      rfl
    · have hbegins' : ¬ c.begins = true := by simp [hbegins]
      rw [hlexer, hskip] at ih
      rw [answers, if_neg hbegins', ih, List.filter_cons_of_neg hbegins']
      simp only [Lexer.upcoming_skip]

/-- **What the calls report comes off what is still to be reported.** By induction on the calls, as
the log is only ever added to. -/
theorem exists_reported (hcalls : calls ⊆ Call.pulls) :
    ∃ reported, (s.run calls).log = s.log.reportAll reported ∧
      s.lexer.drain.diagnostics = reported ++ (s.run calls).lexer.drain.diagnostics := by
  induction calls generalizing s with
  | nil => exact ⟨[], by simp [run, Log.reportAll], rfl⟩
  | cons c calls ih =>
    obtain ⟨hc, hcalls⟩ := List.cons_subset.mp hcalls
    obtain ⟨reported, hlog, hreports⟩ := ih (s := s.step c) hcalls
    refine ⟨(s.lexer.call c).diagnostics ++ reported, ?_, ?_⟩
    · have hstep : (s.step c).log = s.log.reportAll (s.lexer.call c).diagnostics := rfl
      have hrun : s.run (c :: calls) = (s.step c).run calls := rfl
      rw [hrun, hlog, hstep, Log.reportAll, Log.reportAll, Log.reportAll, List.append_assoc]
    · have hstep : (s.step c).lexer = (s.lexer.call c).lexer := rfl
      rw [hstep] at hreports
      rw [Lexer.diagnostics_drain_call hc, hreports, List.append_assoc]
      rfl

/-- A spent lexer stays spent. -/
private theorem spent_run (h : s.lexer.Spent) (hcalls : calls ⊆ Call.pulls) :
    (s.run calls).lexer.Spent := by
  induction calls generalizing s with
  | nil => exact h
  | cons c calls ih =>
    obtain ⟨hc, hcalls⟩ := List.cons_subset.mp hcalls
    exact ih (h.call hc).2.2 hcalls

/-- Once a call was answered with the end of the input, the lexer is spent, and it stays so however
many calls follow. -/
private theorem spent_of_mem_answers (hcalls : calls ⊆ Call.pulls) {a : Option Token}
    (ha : a ∈ s.answers calls) (heof : a.all Token.isEof = true) : (s.run calls).lexer.Spent := by
  induction calls generalizing s with
  | nil => cases ha
  | cons c calls ih =>
    obtain ⟨hc, hcalls⟩ := List.cons_subset.mp hcalls
    rcases Lexer.call_cases (l := s.lexer) hc with ⟨hbegins, hvalue, hnext, -⟩ | ⟨hbegins, -, -⟩
    · rw [answers, if_pos hbegins, hvalue] at ha
      rcases List.mem_cons.mp ha with rfl | ha
      · -- an answer that is missing was asked for at the end
        have htoken : s.lexer.next.value.isEof = true := by
          unfold Call.answer at heof
          split_ifs at heof with hend
          · exact hend.2
          · exact heof
        have hspent : (s.step c).lexer.Spent := by
          have hlexer : (s.step c).lexer = s.lexer.next.lexer := hnext
          rw [hlexer]
          exact Lexer.spent_of_isEof htoken
        exact spent_run (s := s.step c) hspent hcalls
      · exact ih hcalls ha
    · have hbegins' : ¬ c.begins = true := by simp [hbegins]
      rw [answers, if_neg hbegins'] at ha
      exact ih hcalls ha

end Session

/-- **Tokens can be taken in any way.** However calls that ask for the next token, with or without
the end token, and calls that pass trivia follow one another: the calls that ask are answered with
the tokens of the source in their order, and behind the last of them, the end token, with this token
again and again. What is reported is a front part of the reports of the source, and all of them once
the end of the input was an answer. From then on no such call moves the cursor or reports
anything. -/
theorem pulls_stream (names : Namespaces) (source : String) (old : Log) {calls : List Call}
    (hcalls : calls ⊆ Call.pulls) :
    let reading := tokenize names source
    let start := Session.start names source old
    let now := start.run calls
    let answers := start.answers calls
    ∃ before last, reading.tokens = before ++ [last] ∧ last.isEof = true ∧
      (∀ t ∈ before, t.isEof = false) ∧
      answers = ((calls.filter Call.begins).mapIdx fun i c =>
        c.answer (reading.tokens.getD i last)) ∧
      ∃ reported, now.log.diagnostics = old.diagnostics ++ reported ∧
        reported <+: reading.diagnostics ∧
        ((∃ a ∈ answers, a.all Token.isEof = true) → reported = reading.diagnostics ∧
          ∀ c ∈ Call.pulls, (now.step c).lexer.cursor = now.lexer.cursor ∧
            (now.step c).log = now.log) := by
  intro reading start now answers
  obtain ⟨before, last, htokens, hlast, hbefore, hupcoming⟩ := start.lexer.exists_upcoming
  obtain ⟨reported, hlog, hreports⟩ := Session.exists_reported (s := start) hcalls
  refine ⟨before, last, htokens, hlast, hbefore, ?_, reported, ?_, ⟨_, hreports.symm⟩, ?_⟩
  · have hanswers := Session.answers_eq (s := start) hcalls
    simp only [hupcoming] at hanswers
    exact hanswers
  · exact congrArg Log.diagnostics hlog
  · rintro ⟨a, ha, heof⟩
    have hspent : now.lexer.Spent := Session.spent_of_mem_answers hcalls ha heof
    constructor
    · rw [hspent.diagnostics_drain, List.append_nil] at hreports
      exact hreports.symm
    · intro c hc
      obtain ⟨hcursor, hnone, -⟩ := hspent.call hc
      refine ⟨hcursor, ?_⟩
      have hstep : (now.step c).log = now.log.reportAll (now.lexer.call c).diagnostics := rfl
      rw [hstep, hnone, Log.reportAll, List.append_nil]

/-- A name and a comment that is not closed. The comment is passed in front of the end token, which
is then asked for in both ways; it is reported once. -/
theorem pulls_stream_open_comment :
    let source := "a /*"
    let calls : List Call := [.skip, .next, .skip, .skip, .next?, .next]
    let start := Session.start .empty source .empty
    let now := start.run calls
    calls ⊆ Call.pulls ∧
      start.answers calls =
        [some ⟨.ident, "a", ⟨0, 1, 1, 1⟩⟩, none, some (Token.eof ⟨4, 4, 1, 5⟩)] ∧
      now.log.diagnostics = (tokenize .empty source).diagnostics ∧ now.log.errorCount = 1 ∧
      ∀ c ∈ Call.pulls, (now.step c).log = now.log := by
  intro source calls start now
  have hcalls : calls ⊆ Call.pulls := by decide
  have hanswers : start.answers calls =
      [some ⟨.ident, "a", ⟨0, 1, 1, 1⟩⟩, none, some (Token.eof ⟨4, 4, 1, 5⟩)] := by
    decide +kernel
  obtain ⟨-, -, -, -, -, -, reported, hlog, -, hend⟩ := pulls_stream .empty source .empty hcalls
  obtain ⟨hall, hstays⟩ := hend ⟨none, by rw [hanswers]; simp, rfl⟩
  refine ⟨hcalls, hanswers, ?_, by decide +kernel, fun c hc => (hstays c hc).2⟩
  rw [hlog, hall]
  rfl

end Lexis
