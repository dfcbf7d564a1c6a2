import Lexis.Proofs.LongestMatch
import Lexis.Proofs.Namespaces
import Lexis.Proofs.Pulling

/-!
# Words are the longest runs

What a word is can be said without scanning: the longest run of characters that continue a name,
one question or exclamation mark behind it, and, behind a namespace, a point with a second such run
(`Word.Runs`, `IsWord`). The relations are about a word and **the text behind it**, since a mark is
taken or left because of what follows: the exclamation mark of `!=` belongs to the operator.

The scanner finds the one text that is a word (`isWord_iff`). What follows an exclamation mark at
the end of a name is then never an equals sign, and in front of `!=` a name ends without a mark.
-/

namespace Lexis

open Lexis.CharClass

/-! ### The rule -/

namespace Word

/-- `name` is the longest front part of the text whose characters continue a name. -/
def Longest (text name : List Char) : Prop :=
  name <+: text ∧ (∀ c ∈ name, isNameContinue c = true) ∧
    ∀ s, s <+: text → (∀ c ∈ s, isNameContinue c = true) → s.length ≤ name.length

/-- `mark` is what a name takes of the text `mark ++ rest` behind it. -/
inductive Takes : List Char → List Char → Prop
  /-- A question mark. -/
  | question (rest : List Char) : Takes ['?'] rest
  /-- An exclamation mark that is not followed by an equals sign. -/
  | exclamation {rest : List Char} : headIs (· == '=') rest = false → Takes ['!'] rest
  /-- Nothing, if there is no mark, or the exclamation mark of `!=`. -/
  | nothing {rest : List Char} : headIs (· == '?') rest = false →
      (∀ more, rest = '!' :: more → headIs (· == '=') more = true) → Takes [] rest

/-- `head` is the run of a name in front of `rest`, with its mark. -/
def Runs (head rest : List Char) : Prop :=
  ∃ name mark, head = name ++ mark ∧ Longest (head ++ rest) name ∧ Takes mark rest

/-- `head` is a namespace, and behind it stand a point and a character that starts a name. -/
def Joins (names : Namespaces) (head rest : List Char) : Prop :=
  names.contains (String.ofList head) = true ∧
    ∃ c more, rest = '.' :: c :: more ∧ isNameStart c = true

end Word

/-- `text` is a word of the given kind in front of `rest`. -/
inductive IsWord (names : Namespaces) : List Char → List Char → Kind → Prop
  /-- A run that joins with nothing. It may be a reserved word. -/
  | single {head rest : List Char} : Word.Runs head rest → ¬ Word.Joins names head rest →
      IsWord names head rest (Kind.ofWord (String.ofList head))
  /-- A namespace and its member, which are never a reserved word. -/
  | joined {head member rest : List Char} : Word.Runs head ('.' :: (member ++ rest)) →
      Word.Joins names head ('.' :: (member ++ rest)) → Word.Runs member rest →
      IsWord names (head ++ '.' :: member) rest .ident

/-! ### The scanner follows the rule -/

namespace Word

/-- The longest front part of name characters is what the scanner takes first. -/
private theorem longest_iff {text name : List Char} :
    Longest text name ↔ name = text.takeWhile isNameContinue := by
  have hall : ∀ c ∈ text.takeWhile isNameContinue, isNameContinue c = true :=
    fun _ => List.mem_takeWhile_imp
  constructor
  · rintro ⟨hfront, hname, hlongest⟩
    refine (prefix_takeWhile hfront hname).eq_of_length_le ?_
    exact hlongest _ (List.takeWhile_prefix _) hall
  · rintro rfl
    exact ⟨List.takeWhile_prefix _, hall, fun s hs hc => (prefix_takeWhile hs hc).length_le⟩

/-- The scanner takes the mark that the rule allows. An exclamation mark in front of `=` is none,
for it begins `!=`. -/
private theorem takes_iff {mark rest : List Char} :
    Takes mark rest ↔ Lexeme.suffix (mark ++ rest) = mark := by
  constructor
  · rintro (- | hequals | ⟨hquestion, hbang⟩)
    · rfl
    · exact Lexeme.suffix_bang hequals
    · rcases Lexeme.suffix_cases ([] ++ rest) with hnone | ⟨t, rfl⟩ | ⟨t, rfl, ht⟩
      · exact hnone
      · cases hquestion
      · exact Lexeme.suffix_bang_eq (hbang t rfl)
  · intro h
    rcases Lexeme.suffix_cases (mark ++ rest) with hnone | ⟨t, ht⟩ | ⟨t, ht, hequals⟩
    · obtain rfl : [] = mark := hnone.symm.trans h
      refine .nothing ?_ fun more hmore => ?_
      · rcases hhead : headIs (· == '?') rest with _ | _
        · rfl
        · cases rest with
          | nil => cases hhead
          | cons c rest =>
            obtain rfl : c = '?' := by simpa [headIs] using hhead
            cases hnone
      · rcases hhead : headIs (· == '=') more with _ | _
        · rw [hmore] at hnone
          exact absurd (hnone.symm.trans (Lexeme.suffix_bang hhead)) (by simp)
        · rfl
    · obtain rfl : ['?'] = mark := by rw [← h, ht]; rfl
      exact .question rest
    · obtain rfl : ['!'] = mark := by rw [← h, ht, Lexeme.suffix_bang hequals]
      obtain rfl : rest = t := (List.cons.inj ht).2
      exact .exclamation hequals

/-- The rule for a run is what the scanner does: the longest name, and the mark behind it. What is
left over agrees because both are cut off the same text. -/
private theorem runs_iff {head rest : List Char} :
    Runs head rest ↔ Lexeme.run (head ++ rest) = head := by
  have happ := List.takeWhile_append_dropWhile (p := isNameContinue) (l := head ++ rest)
  constructor
  · rintro ⟨name, mark, hhead, hname, hmark⟩
    rw [← longest_iff.mp hname, hhead, List.append_assoc] at happ
    have hdrop : (head ++ rest).dropWhile isNameContinue = mark ++ rest := by
      rw [hhead, List.append_assoc]
      exact List.append_cancel_left happ
    rw [Lexeme.run, hdrop, takes_iff.mp hmark, ← longest_iff.mp hname, hhead]
  · intro h
    refine ⟨_, _, h.symm, longest_iff.mpr rfl, takes_iff.mpr ?_⟩
    -- what is behind the name is the mark and the rest
    have hdrop : (head ++ rest).dropWhile isNameContinue =
        Lexeme.suffix ((head ++ rest).dropWhile isNameContinue) ++ rest := by
      have hrun : (head ++ rest).takeWhile isNameContinue ++
          (Lexeme.suffix ((head ++ rest).dropWhile isNameContinue) ++ rest) = head ++ rest := by
        rw [← List.append_assoc]
        exact congrArg (· ++ rest) h
      exact List.append_cancel_left (happ.trans hrun.symm)
    rw [← hdrop]

/-- What the scanner leaves over is what follows the run. -/
private theorem afterRun_of_runs {head rest : List Char} (h : Runs head rest) :
    Lexeme.afterRun (head ++ rest) = rest := by
  have happ := Lexeme.run_append (head ++ rest)
  rw [runs_iff.mp h] at happ
  exact List.append_cancel_left happ

/-- The rule for joining is what the scanner asks: a namespace, a point and the start of a name. -/
private theorem joins_iff {names : Namespaces} {head rest : List Char} (h : Runs head rest) :
    Joins names head rest ↔ Lexeme.joins names [] (head ++ rest) = true := by
  rw [Lexeme.joins, List.nil_append, runs_iff.mp h, afterRun_of_runs h, Bool.and_eq_true]
  refine and_congr_right fun _ => ⟨?_, Lexeme.exists_of_startsMember⟩
  rintro ⟨c, more, rfl, hc⟩
  exact hc

end Word

/-- **The scanner finds the word at the front of a text**, and there is no other. Both directions go
by whether the word takes a member. -/
theorem isWord_iff {names : Namespaces} {w rest : List Char} {k : Kind} :
    IsWord names w rest k ↔ Lexeme.word names [] (w ++ rest) = ⟨k, w, w, rest, []⟩ := by
  constructor
  · rintro (⟨hrun, hjoins⟩ | ⟨hrun, hjoins, hmember⟩)
    · have hnot : Lexeme.joins names [] (w ++ rest) = false := by
        simpa [Word.joins_iff hrun] using hjoins
      rw [Lexeme.word_of_not_joins hnot, List.nil_append, Word.runs_iff.mp hrun,
        Word.afterRun_of_runs hrun]
    · have hyes := (Word.joins_iff hrun).mp hjoins
      rw [List.append_assoc, List.cons_append, Lexeme.word_of_joins hyes, List.nil_append,
        Word.runs_iff.mp hrun, Word.afterRun_of_runs hrun, List.drop_one, List.tail_cons,
        Word.runs_iff.mp hmember, Word.afterRun_of_runs hmember]
  · intro h
    generalize hcs : w ++ rest = cs at h
    have happ := Lexeme.run_append cs
    have hruns : Word.Runs (Lexeme.run cs) (Lexeme.afterRun cs) :=
      Word.runs_iff.mpr (by rw [happ])
    rcases hjoins : Lexeme.joins names [] cs with _ | _
    · rw [Lexeme.word_of_not_joins hjoins, List.nil_append] at h
      cases h
      refine .single hruns fun hyes => ?_
      rw [Word.joins_iff hruns, happ, hjoins] at hyes
      cases hyes
    · have hpoint := Lexeme.afterRun_of_startsMember (Bool.and_eq_true_iff.mp hjoins).2
      have hmember := Lexeme.run_append ((Lexeme.afterRun cs).drop 1)
      rw [Lexeme.word_of_joins hjoins] at h
      cases h
      rw [← hmember] at hpoint
      rw [hpoint] at hruns
      refine .joined hruns ((Word.joins_iff hruns).mpr ?_) (Word.runs_iff.mpr (by rw [hmember]))
      rwa [← hpoint, happ]

/-- One text has one word at its front, for the scanner finds it. -/
private theorem IsWord.eq_of_append {names : Namespaces} {w w' rest rest' : List Char} {k k' : Kind}
    (h : IsWord names w rest k) (h' : IsWord names w' rest' k') (happ : w ++ rest = w' ++ rest') :
    w = w' ∧ k = k' := by
  have hscan := isWord_iff.mp h
  rw [happ, isWord_iff.mp h'] at hscan
  exact ⟨(congrArg Lexeme.text hscan).symm, (congrArg Lexeme.kind hscan).symm⟩

/-! ### What follows a word -/

/-- A run that ends in an exclamation mark is not followed by an equals sign, or the mark would not
be part of it. -/
private theorem Word.Runs.ne_equals {head rest : List Char} (h : Runs head rest)
    (hlast : head.getLast? = some '!') : headIs (· == '=') rest = false := by
  obtain ⟨name, mark, rfl, ⟨-, hname, -⟩, hmark⟩ := h
  cases hmark with
  | question => simp at hlast
  | exclamation hequals => exact hequals
  | nothing =>
    -- no mark continues a name
    rw [List.append_nil] at hlast
    exact absurd (hname '!' (List.mem_of_getLast? hlast)) (by decide)

/-- **An exclamation mark at the end of a word** is not part of `!=`, for the rule asks this of
every mark it takes, with or without a member. -/
theorem IsWord.ne_equals {names : Namespaces} {w rest : List Char} {k : Kind}
    (h : IsWord names w rest k) (hlast : w.getLast? = some '!') :
    headIs (· == '=') rest = false := by
  cases h with
  | single hruns => exact hruns.ne_equals hlast
  | @joined head member _ _ _ hmember =>
    refine hmember.ne_equals ?_
    cases member with
    | nil => simp at hlast
    | cons c member => simpa using hlast

/-- **A name in front of `!=`** is a word by itself, whatever the namespaces are: neither a mark nor
a member follows it. -/
theorem isWord_of_isName (names : Namespaces) {w : List Char} (h : isName w = true)
    (more : List Char) :
    IsWord names w ('!' :: '=' :: more) (Kind.ofWord (String.ofList w)) := by
  have hend : headIs isNameContinue ('!' :: '=' :: more) = false :=
    show isNameContinue '!' = false by decide
  refine .single ⟨w, [], (List.append_nil w).symm, ?_, .nothing rfl ?_⟩ ?_
  · exact Word.longest_iff.mpr (takeWhile_append_of_headIs (Lexeme.all_of_isName h) hend).symm
  · rintro _ ⟨⟩
    rfl
  · rintro ⟨-, c, rest, hpoint, -⟩
    cases hpoint

/-- A word is found at the front of every text; it may be empty, where no name character is
ahead. -/
private theorem exists_isWord (names : Namespaces) (cs : List Char) :
    ∃ w rest k, w ++ rest = cs ∧ IsWord names w rest k ∧
      Lexeme.word names [] cs = ⟨k, w, w, rest, []⟩ := by
  have happ := Lexeme.word_append names [] cs
  have hword : ∃ w rest k, Lexeme.word names [] cs = ⟨k, w, w, rest, []⟩ := by
    rcases hjoins : Lexeme.joins names [] cs with _ | _
    · exact ⟨_, _, _, Lexeme.word_of_not_joins hjoins⟩
    · exact ⟨_, _, _, Lexeme.word_of_joins hjoins⟩
  obtain ⟨w, rest, k, hword⟩ := hword
  rw [hword] at happ
  exact ⟨w, rest, k, happ, isWord_iff.mpr (happ ▸ hword), hword⟩

/-! ### Words as tokens -/

/-- A name is scanned only where one starts. -/
private theorem Lexeme.isNameStart_of_kind_eq_ident {names : Namespaces} {c : Char}
    {rest : List Char} (h : (scan names c rest).kind = .ident) : isNameStart c = true := by
  have hword : (scan names c rest).kind.isWord = true := by
    rw [h]
    rfl
  exact isNameStart_of_isWord hword

namespace Lexer

variable {l : Lexer} {c : Char} {rest : List Char}

/-- **Where a name starts, the next token is a word**, and nothing is reported. Its literal is its
text, and the lexer stands behind it. -/
theorem isWord_next (h : l.skip.lexer.cursor.ahead = c :: rest) (hname : isNameStart c = true) :
    let p := l.skip.lexer.cursor.pos
    let t := l.next.value
    let text := t.literal.toList
    let behind := l.next.lexer.cursor.ahead
    IsWord l.names text behind t.kind ∧ text ++ behind = c :: rest ∧
      l.next.lexer.cursor.pos = p.advance text ∧ t.span = Span.between p (p.advance text) ∧
      l.next.diagnostics = [] := by
  intro p t text behind
  obtain ⟨w, more, k, happ, hword, heq⟩ := exists_isWord l.names (c :: rest)
  obtain ⟨hvalue, hreports, hahead, hpos⟩ := next_of_ahead_skip h
  rw [Lexeme.scan_of_isNameStart l.names rest hname, heq] at hvalue hreports hahead hpos
  have htext : text = w := (congrArg (·.literal.toList) hvalue).trans String.toList_ofList
  have hkind : t.kind = k := congrArg Token.kind hvalue
  have hbehind : behind = more := hahead
  rw [htext, hkind, hbehind]
  exact ⟨hword, happ, hpos, congrArg Token.span hvalue, hreports⟩

/-- A name is found only where one starts. -/
private theorem exists_of_kind_eq_ident (h : l.next.value.kind = .ident) :
    ∃ c rest, l.skip.lexer.cursor.ahead = c :: rest ∧ isNameStart c = true := by
  rcases hahead : l.skip.lexer.cursor.ahead with _ | ⟨c, rest⟩
  · have hbegin : l.skip.lexer.begin.cursor.ahead = [] := hahead
    simp [next, token, hbegin, Token.eof] at h
  · have hkind : (Lexeme.scan l.names c rest).kind = .ident := by
      rw [← h, (next_of_ahead_skip hahead).1]
      rfl
    exact ⟨c, rest, rfl, Lexeme.isNameStart_of_kind_eq_ident hkind⟩

/-- The operator `!=` is a token of its own where it is ahead, whatever follows it. -/
private theorem next_of_notEqual {more : List Char} (hopened : l.opened = true)
    (h : l.cursor.ahead = '!' :: '=' :: more) :
    let p := l.cursor.pos
    l.next.value = ⟨.symbol .notEqual, "!=", Span.between p (p.advance ['!', '='])⟩ ∧
      l.next.diagnostics = [] ∧ l.next.lexer.cursor.ahead = more := by
  intro p
  have hclear : Trivia.Clear l.cursor.ahead := by
    rw [h]
    exact Trivia.clear_cons _ (by decide) (by decide)
  have hskip := skip_of_clear hopened hclear
  have hahead : l.skip.lexer.cursor.ahead = '!' :: '=' :: more := by rw [hskip, h]
  obtain ⟨hvalue, hreports, hbehind, -⟩ := next_of_ahead_skip hahead
  rw [hskip] at hvalue
  exact ⟨hvalue, hreports, hbehind⟩

end Lexer

/-- A name in a source that ends in an exclamation mark is not followed by an equals sign, at the
offset where it stops. -/
private theorem dropBytes_of_mem_tokens {names : Namespaces} {source : String} {t : Token}
    (h : t ∈ (tokenize names source).tokens) (hkind : t.kind = .ident)
    (hlast : t.literal.toList.getLast? = some '!') (more : List Char) :
    Text.dropBytes t.span.stop source.toList ≠ some ('=' :: more) := by
  obtain ⟨happ, -⟩ := Trivia.opens_prologue source.toList
  rw [(tokenize_eq names source).1] at h
  rcases exists_of_mem_tokens_divide names _ happ t h with rfl | ⟨front, c, rest, hcs, -, rfl, -⟩
  · cases hkind
  · have hname : isNameStart c = true := Lexeme.isNameStart_of_kind_eq_ident hkind
    obtain ⟨w, behind, k, hw, hword, heq⟩ := exists_isWord names (c :: rest)
    rw [Lexeme.scan_of_isNameStart names rest hname, heq] at hlast ⊢
    have hequals := hword.ne_equals (hlast ▸ by rw [Lexeme.token, String.toList_ofList])
    rw [Lexeme.stop_token_after, ← hcs, ← hw, ← List.append_assoc, Text.dropBytes_append]
    rintro ⟨⟩
    cases hequals

/-- **A word is the longest run of a name**, with one mark behind it, unless this is the exclamation
mark of `!=`; a namespace takes its member, too. There is no other word at the front of the text.
The kind of a run alone is that of a reserved word or a name, that of a joined word is a name's, and
nothing is reported. A name that ends in an exclamation mark is therefore not followed by an equals
sign, neither for a single call nor in a whole stream, and a plain name in front of `!=` is a token,
and the operator is the next. -/
theorem words_longest :
    (∀ (l : Lexer) (c : Char) (rest : List Char),
      l.skip.lexer.cursor.ahead = c :: rest → isNameStart c = true →
      let p := l.skip.lexer.cursor.pos
      let t := l.next.value
      let text := t.literal.toList
      let behind := l.next.lexer.cursor.ahead
      (IsWord l.names text behind t.kind ∧
        ∀ w more k, w ++ more = c :: rest → IsWord l.names w more k → w = text ∧ k = t.kind) ∧
      text ++ behind = c :: rest ∧ l.next.lexer.cursor.pos = p.advance text ∧
      t.span = Span.between p (p.advance text) ∧ l.next.diagnostics = []) ∧
    (∀ l : Lexer, l.next.value.kind = .ident →
      l.next.value.literal.toList.getLast? = some '!' →
      headIs (· == '=') l.next.lexer.cursor.ahead = false) ∧
    (∀ (names : Namespaces) (source : String), ∀ t ∈ (tokenize names source).tokens,
      t.kind = .ident → t.literal.toList.getLast? = some '!' →
      ∀ more, Text.dropBytes t.span.stop source.toList ≠ some ('=' :: more)) ∧
    ∀ (l : Lexer) (w more : List Char), isName w = true →
      l.skip.lexer.cursor.ahead = w ++ '!' :: '=' :: more →
      let word := l.next
      let operator := word.lexer.next
      let q := word.lexer.cursor.pos
      word.value.literal.toList = w ∧ word.value.kind = Kind.ofWord (String.ofList w) ∧
        operator.value = ⟨.symbol .notEqual, "!=", Span.between q (q.advance ['!', '='])⟩ ∧
        operator.lexer.cursor.ahead = more := by
  refine ⟨fun l c rest h hname => ?_, fun l hkind hlast => ?_, fun _ _ _ => dropBytes_of_mem_tokens,
    fun l w more hw h => ?_⟩
  · obtain ⟨hword, happ, hpos, hspan, hreports⟩ := Lexer.isWord_next h hname
    refine ⟨⟨hword, fun w more k hw hother => ?_⟩, happ, hpos, hspan, hreports⟩
    exact hother.eq_of_append hword (hw.trans happ.symm)
  · obtain ⟨c, rest, h, hname⟩ := Lexer.exists_of_kind_eq_ident hkind
    exact (Lexer.isWord_next h hname).1.ne_equals hlast
  · obtain ⟨c, tail, rfl, hname⟩ := Lexeme.exists_of_isHead ⟨w, hw, .inl rfl⟩
    obtain ⟨hword, happ, -⟩ := Lexer.isWord_next h hname
    obtain ⟨hliteral, hkind⟩ := (isWord_of_isName l.names hw more).eq_of_append hword happ.symm
    intro word operator q
    rw [← hliteral] at happ
    obtain ⟨hoperator, -, hbehind⟩ :=
      Lexer.next_of_notEqual (Lexer.opened_next l) (List.append_cancel_left happ)
    exact ⟨hliteral.symm, hkind.symm, hoperator, hbehind⟩

/-- A reserved word is a namespace. It joins with a member that takes the first of two exclamation
marks, and it stays a reserved word in front of `!=`. -/
theorem words_longest_reserved :
    let names := Namespaces.ofList ["let"]
    let l := Lexer.start names " let.x!!=y"
    let m := Lexer.start names "let!=y"
    l.skip.lexer.cursor.ahead = "let.x!!=y".toList ∧ l.next.value.literal = "let.x!" ∧
      IsWord names "let.x!".toList "!=y".toList .ident ∧
      headIs (· == '=') l.next.lexer.cursor.ahead = false ∧
      m.next.value.kind = .keyword .letKey ∧
      m.next.lexer.next.value = ⟨.symbol .notEqual, "!=", ⟨3, 5, 1, 4⟩⟩ := by
  intro names l m
  obtain ⟨hwords, hmark, -, hplain⟩ := words_longest
  have hahead : l.skip.lexer.cursor.ahead = "let.x!!=y".toList := by decide +kernel
  have htoken : l.next.value.literal = "let.x!" ∧ l.next.value.kind = .ident ∧
      l.next.lexer.cursor.ahead = "!=y".toList := by decide +kernel
  obtain ⟨hliteral, hkind, hbehind⟩ := htoken
  obtain ⟨⟨hword, -⟩, -⟩ := hwords l 'l' "et.x!!=y".toList hahead (by decide)
  rw [hliteral, hkind, hbehind] at hword
  obtain ⟨-, hreserved, hoperator, -⟩ :=
    hplain m "let".toList ['y'] (by decide) (by decide +kernel)
  refine ⟨hahead, hliteral, hword, hmark l hkind (by rw [hliteral]; decide +kernel), ?_, ?_⟩
  · rw [hreserved]
    decide +kernel
  · rw [hoperator]
    decide +kernel

end Lexis
