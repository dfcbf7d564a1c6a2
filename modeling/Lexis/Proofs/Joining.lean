import Lexis.Proofs.Division

/-!
# Namespaces join tokens

Which names join with a following member is the **only** thing that the namespaces decide. Reading a
source with namespaces gives the tokens of the same source without any, with each namespace, point
and member that touch put together (`joinAll`), from left to right and never twice; the reports are
the same.

The two readings part at each joined name and meet again behind it. The proof is by induction on
the text ahead: where a name joins, one step on the one side answers three on the other; where it
does not, the tokens that follow cannot touch in the way that joins
(`startsMember_of_tokens_divide`).
-/

namespace Lexis

open Lexis.CharClass

/-! ### Joining the tokens of a stream -/

namespace Token

/-- The three tokens are a namespace, a point and a word, with nothing in between. -/
def joins (names : Namespaces) (t u v : Token) : Bool :=
  t.kind.isWord && names.contains t.literal &&
    (u.kind == .symbol .period && u.span.start == t.span.stop) &&
    (v.kind.isWord && v.span.start == u.span.stop)

/-- The three tokens as one name, at the place of the first. -/
def join (t u v : Token) : Token :=
  ⟨.ident, t.literal ++ u.literal ++ v.literal,
    ⟨t.span.start, v.span.stop, t.span.line, t.span.column⟩⟩

/-- Joins from left to right; what was joined is passed over. -/
def joinAll (names : Namespaces) : List Token → List Token
  | t :: u :: v :: more =>
    if t.joins names u v then t.join u v :: joinAll names more
    else t :: joinAll names (u :: v :: more)
  | ts => ts

private theorem joinAll_of_joins {names : Namespaces} {t u v : Token} (more : List Token)
    (h : t.joins names u v = true) :
    joinAll names (t :: u :: v :: more) = t.join u v :: joinAll names more := by
  rw [joinAll, if_pos h]

/-- A token that does not join with the next two stays as it is. -/
private theorem joinAll_cons {names : Namespaces} {t : Token} {ts : List Token}
    (h : ∀ u v more, ts = u :: v :: more → t.joins names u v = false) :
    joinAll names (t :: ts) = t :: joinAll names ts := by
  match ts with
  | [] => rfl
  | [u] => rfl
  | u :: v :: more =>
    have hnot := h u v more rfl
    rw [joinAll, if_neg (by simp [hnot])]

end Token

/-! ### Words and points -/

namespace Lexeme

private theorem joins_empty (pending cs : List Char) : joins .empty pending cs = false := by
  simp [joins, Namespaces.contains, Namespaces.empty]

/-- Outside words the namespaces are not asked. -/
theorem scan_eq_of_not_isNameStart (names : Namespaces) {c : Char} (rest : List Char)
    (h : isNameStart c = false) : scan names c rest = scan .empty c rest := by
  simp [scan, h]

private theorem scan_period (names : Namespaces) (rest : List Char) :
    scan names '.' rest = ⟨.symbol .period, ['.'], ['.'], rest, []⟩ := by
  rw [scan_of_ofChar? names rest (by decide : Symbol.ofChar? '.' = some .period)]
  cases rest <;> rfl

/-- Only a point is read as a point, so the kind of a token tells which character is there. -/
private theorem eq_point_of_kind {names : Namespaces} {c : Char} {rest : List Char}
    (h : (scan names c rest).kind = .symbol .period) : c = '.' := by
  rcases ofChar?_of_kind_eq_symbol h with hs | ⟨t, d, -, hextend⟩
  · have hmark : ∀ c ∈ Symbol.marks, Symbol.ofChar? c = some .period → c = '.' :=
      List.all_iff_forall_prop.mp (by decide)
    exact hmark c (Symbol.mem_marks_of_ofChar? hs) hs
  · -- no symbol is extended to a point
    unfold Symbol.extend? at hextend
    split at hextend <;> simp at hextend

end Lexeme

/-! ### Two readings of one text -/

/-- A token that starts where the text starts has no gap in front of it. So its lexeme is scanned
from the first character on. -/
private theorem exists_of_tokens_divide {names : Namespaces} {cs : List Char} {p : Position}
    {u : Token}
    {more : List Token} (h : (divide names cs).tokens p = u :: more) (heof : u.isEof = false)
    (hstart : u.span.start = p.offset) :
    ∃ c rest, cs = c :: rest ∧ u = (Lexeme.scan names c rest).token p ∧
      more = (divide names (Lexeme.scan names c rest).rest).tokens
        (p.advance (Lexeme.scan names c rest).text) := by
  rcases hrest : (Trivia.scan cs).rest with _ | ⟨c, rest⟩
  · rw [divide_of_rest_nil names hrest] at h
    obtain ⟨rfl, -⟩ := List.cons.inj h
    cases heof
  · rw [divide_of_rest_cons names hrest] at h
    obtain ⟨rfl, rfl⟩ := List.cons.inj h
    have hlength : Text.byteLength (Trivia.scan cs).text = 0 := by
      simp only [Lexeme.token, Lexeme.span, Span.between, Position.offset_advance] at hstart
      omega
    have hgap := Text.byteLength_eq_zero.mp hlength
    have hcs := Trivia.scan_append cs
    rw [hgap, hrest] at hcs
    rw [hgap]
    exact ⟨c, rest, hcs.symm, rfl, rfl⟩

/-- Where a point and a word follow without a gap, a member starts, for the word begins with a
character that starts a name. -/
private theorem startsMember_of_tokens_divide {names : Namespaces} {cs : List Char} {p : Position}
    {u v : Token} {more : List Token} (h : (divide names cs).tokens p = u :: v :: more)
    (hu : u.kind = .symbol .period) (hustart : u.span.start = p.offset)
    (hv : v.kind.isWord = true) (hvstart : v.span.start = u.span.stop) :
    Lexeme.startsMember cs = true := by
  have hueof : u.isEof = false := by simp [Token.isEof, hu]
  obtain ⟨c, rest, rfl, rfl, hmore⟩ := exists_of_tokens_divide h hueof hustart
  obtain rfl := Lexeme.eq_point_of_kind hu
  rw [Lexeme.scan_period] at hmore hvstart
  have hveof : v.isEof = false := by
    unfold Token.isEof
    cases hk : v.kind <;> simp_all [Kind.isWord]
  obtain ⟨d, rest, rfl, rfl, -⟩ := exists_of_tokens_divide hmore.symm hveof hvstart
  exact Lexeme.isNameStart_of_isWord hv

/-- A word that does not join stays apart from the tokens behind it. If its kind and its text would
join, no point or no member follows it without a gap. -/
private theorem joins_token_eq_false {names : Namespaces} {c : Char} {rest : List Char}
    {p : Position}
    (hname : isNameStart c = true) (hjoins : Lexeme.joins names [] (c :: rest) = false) :
    let x := Lexeme.scan .empty c rest
    ∀ u v more, (divide .empty x.rest).tokens (p.advance x.text) = u :: v :: more →
      (x.token p).joins names u v = false := by
  intro x u v more hmore
  by_contra hjoin
  have hx : x = ⟨Kind.ofWord (String.ofList (Lexeme.run (c :: rest))), Lexeme.run (c :: rest),
      Lexeme.run (c :: rest), Lexeme.afterRun (c :: rest), []⟩ :=
    (Lexeme.scan_of_isNameStart .empty rest hname).trans
      (Lexeme.word_of_not_joins (Lexeme.joins_empty [] _))
  simp only [Token.joins, Bool.not_eq_false, Bool.and_eq_true, beq_iff_eq] at hjoin
  obtain ⟨⟨⟨-, hnames⟩, hu, hustart⟩, hv, hvstart⟩ := hjoin
  have hmember := startsMember_of_tokens_divide hmore hu hustart hv hvstart
  rw [hx] at hnames hmember
  have hyes : Lexeme.joins names [] (c :: rest) = true :=
    Bool.and_eq_true_iff.mpr ⟨hnames, hmember⟩
  rw [hjoins] at hyes
  cases hyes

/-- A word that joins is read in three steps without namespaces: the word, the point and the
member. -/
private theorem divide_empty_of_startsMember {cs : List Char} (h : Lexeme.startsMember cs = true) :
    divide .empty cs = .item ⟨[], cs, none⟩ ⟨.symbol .period, ['.'], ['.'], cs.drop 1, []⟩
      (.item ⟨[], cs.drop 1, none⟩ (Lexeme.word .empty [] (cs.drop 1))
        (divide .empty (Lexeme.afterRun (cs.drop 1)))) := by
  obtain ⟨c, rest, rfl, hname⟩ := Lexeme.exists_of_startsMember h
  have hpoint : Trivia.Clear ('.' :: c :: rest) := Trivia.clear_cons _ (by decide) (by decide)
  have hmember : Trivia.Clear (c :: rest) := Trivia.clear_of_isNameStart rest hname
  have hword : (Lexeme.word .empty [] (c :: rest)).rest = Lexeme.afterRun (c :: rest) := by
    rw [Lexeme.word_of_not_joins (Lexeme.joins_empty [] _)]
  rw [divide_of_rest_cons .empty (by rw [Trivia.scan_of_clear hpoint]), Lexeme.scan_period,
    divide_of_rest_cons .empty (by rw [Trivia.scan_of_clear hmember]),
    Lexeme.scan_of_isNameStart .empty rest hname, Trivia.scan_of_clear hpoint,
    Trivia.scan_of_clear hmember, hword]
  rfl

/-- Wherever the text stands, its tokens with namespaces are those without, joined, and the reports
agree. -/
def ReadsJoined (names : Namespaces) (cs : List Char) : Prop :=
  ∀ p, (divide names cs).tokens p = Token.joinAll names ((divide .empty cs).tokens p) ∧
    (divide names cs).diagnostics p = (divide .empty cs).diagnostics p

/-- A word that joins: one token on the one side, three on the other. The three touch and begin with
a namespace, so they are joined. -/
private theorem readsJoined_of_joins {names : Namespaces} {cs : List Char} {c : Char}
    {rest : List Char} (hrest : (Trivia.scan cs).rest = c :: rest) (hname : isNameStart c = true)
    (hjoins : Lexeme.joins names [] (c :: rest) = true)
    (ih : ReadsJoined names (Lexeme.afterRun ((Lexeme.afterRun (c :: rest)).drop 1))) :
    ReadsJoined names cs := by
  intro p
  obtain ⟨hnames, hmember⟩ := Bool.and_eq_true_iff.mp hjoins
  rw [divide_of_rest_cons names hrest, divide_of_rest_cons .empty hrest,
    Lexeme.scan_of_isNameStart names rest hname, Lexeme.word_of_joins hjoins,
    Lexeme.scan_of_isNameStart .empty rest hname,
    Lexeme.word_of_not_joins (Lexeme.joins_empty [] _), divide_empty_of_startsMember hmember,
    Lexeme.word_of_not_joins (Lexeme.joins_empty [] _)]
  set q := p.advance (Trivia.scan cs).text with hq
  set head := Lexeme.run (c :: rest)
  set member := (Lexeme.afterRun (c :: rest)).drop 1
  -- behind the member both readings stand at the same place:
  obtain ⟨ihv, ihd⟩ := ih (q.advance (head ++ '.' :: Lexeme.run member))
  simp only [Division.tokens, Division.diagnostics, ← hq]
  rw [Token.joinAll_of_joins, ihv, ihd]
  · constructor
    · simp [Token.join, Lexeme.token, Lexeme.span, Span.between, String.ofList_append,
        String.append_assoc]
    · simp [Lexeme.diagnostics, Gap.diagnostics]
  · simpa [Token.joins, Lexeme.token, Lexeme.span, Span.between, Kind.isWord_ofWord] using hnames

/-- Any other lexeme: the same token on both sides, and the next two do not join with it, since it
is no word or they do not touch. -/
private theorem readsJoined_of_not_joins {names : Namespaces} {cs : List Char} {c : Char}
    {rest : List Char} (hrest : (Trivia.scan cs).rest = c :: rest)
    (hkeep : isNameStart c = true → Lexeme.joins names [] (c :: rest) = false)
    (ih : ReadsJoined names (Lexeme.scan .empty c rest).rest) : ReadsJoined names cs := by
  intro p
  set x := Lexeme.scan .empty c rest with hx
  have hscan : Lexeme.scan names c rest = x := by
    by_cases hname : isNameStart c = true
    · rw [hx, Lexeme.scan_of_isNameStart names rest hname,
        Lexeme.scan_of_isNameStart .empty rest hname, Lexeme.word_of_not_joins (hkeep hname),
        Lexeme.word_of_not_joins (Lexeme.joins_empty [] _)]
    · exact Lexeme.scan_eq_of_not_isNameStart names rest (by simpa using hname)
  -- the next two tokens touch as a member does only if the lexeme had joined already:
  have hapart : ∀ q u v more, (divide .empty x.rest).tokens (q.advance x.text) = u :: v :: more →
      (x.token q).joins names u v = false := by
    intro q u v more hmore
    by_cases hname : isNameStart c = true
    · exact joins_token_eq_false hname (hkeep hname) u v more hmore
    · have hword : x.kind.isWord = false := by
        by_contra h
        exact hname (Lexeme.isNameStart_of_isWord (by simpa using h))
      simp [Token.joins, Lexeme.token, hword]
  rw [divide_of_rest_cons names hrest, divide_of_rest_cons .empty hrest, hscan]
  obtain ⟨ihv, ihd⟩ := ih ((p.advance (Trivia.scan cs).text).advance x.text)
  simp only [Division.tokens, Division.diagnostics]
  rw [Token.joinAll_cons (hapart _), ihv, ihd]
  exact ⟨rfl, rfl⟩

/-- **Two readings of one text** agree up to joining. By induction along the text, where each step
reads a lexeme or a word with its member. -/
theorem readsJoined (names : Namespaces) (cs : List Char) : ReadsJoined names cs := by
  rcases hrest : (Trivia.scan cs).rest with _ | ⟨c, rest⟩
  · intro p
    rw [divide_of_rest_nil names hrest, divide_of_rest_nil .empty hrest]
    exact ⟨rfl, rfl⟩
  · by_cases hjoin : isNameStart c = true ∧ Lexeme.joins names [] (c :: rest) = true
    · obtain ⟨hname, hjoins⟩ := hjoin
      -- the joined name takes the member too, so what is left is shorter:
      have hshorter : (Lexeme.afterRun ((Lexeme.afterRun (c :: rest)).drop 1)).length <
          cs.length := by
        simpa [Lexeme.scan_of_isNameStart names rest hname, Lexeme.word_of_joins hjoins] using
          length_rest_scan_lt names hrest
      exact readsJoined_of_joins hrest hname hjoins (readsJoined names _)
    · exact readsJoined_of_not_joins hrest (by simpa using hjoin) (readsJoined names _)
termination_by cs.length
decreasing_by
  · exact hshorter
  · exact length_rest_scan_lt .empty hrest

/-- **Namespaces join tokens and do nothing else.** The tokens of a source are those that it has
without namespaces, with each namespace, point and word that touch joined into one name, from left
to right; the reports are the same. -/
theorem tokenize_eq_joinAll (names : Namespaces) (source : String) :
    (tokenize names source).tokens = Token.joinAll names (tokenize .empty source).tokens ∧
      (tokenize names source).diagnostics = (tokenize .empty source).diagnostics := by
  obtain ⟨htokens, hdiag⟩ := tokenize_eq names source
  obtain ⟨htokens', hdiag'⟩ := tokenize_eq .empty source
  rw [htokens, hdiag, htokens', hdiag']
  exact readsJoined names _ _

end Lexis
