import Lexis.Proofs.Prologue

/-!
# Strings say what was written into them

A text can be written between quotation marks in many ways: quotation marks and backslashes need an
escape, a line feed, a tab and a carriage return may have one, and all else stands for itself
(`Lexeme.spellings`). `Lexeme.Writes v e` says that `e` writes `v`, with the choice made **anew at
each occurrence**.

However a text was written, a string gives it back (`quotation_of_writes`), and nothing behind the
closing mark has a say in this. The argument goes piece by piece: what is written for one character
is one piece of the body that stands for this character and has no flaw.
-/

namespace Lexis

namespace Lexeme

/-! ### Writing a text between quotation marks -/

/-- The ways to write a character between quotation marks. -/
def spellings (c : Char) : List (List Char) :=
  if c = '"' then [['\\', '"']]
  else if c = '\\' then [['\\', '\\']]
  else if c = '\n' then [['\n'], ['\\', 'n']]
  else if c = '\t' then [['\t'], ['\\', 't']]
  else if c = '\r' then [['\r'], ['\\', 'r']]
  else [[c]]

/-- The second text writes the first: each character in one of its ways. -/
inductive Writes : List Char → List Char → Prop
  /-- The empty text is written as it is. -/
  | nil : Writes [] []
  /-- A further character in front, in one of its ways. -/
  | cons {c : Char} {v w e : List Char} : w ∈ spellings c → Writes v e → Writes (c :: v) (w ++ e)

/-- A character is written as itself, unless it is a quotation mark or a backslash, or as an escape
that stands for it. -/
private theorem spellings_cases {c : Char} {w : List Char} (h : w ∈ spellings c) :
    (w = [c] ∧ c ≠ '"' ∧ c ≠ '\\') ∨ ∃ d, w = ['\\', d] ∧ escaped? d = some c := by
  unfold spellings at h
  split_ifs at h with hquote hslash hfeed htab hreturn
  · exact .inr ⟨'"', by simpa using h, by rw [hquote]; rfl⟩
  · exact .inr ⟨'\\', by simpa using h, by rw [hslash]; rfl⟩
  · subst hfeed
    rcases (by simpa using h : w = ['\n'] ∨ w = ['\\', 'n']) with rfl | rfl
    · exact .inl ⟨rfl, hquote, hslash⟩
    · exact .inr ⟨'n', rfl, rfl⟩
  · subst htab
    rcases (by simpa using h : w = ['\t'] ∨ w = ['\\', 't']) with rfl | rfl
    · exact .inl ⟨rfl, hquote, hslash⟩
    · exact .inr ⟨'t', rfl, rfl⟩
  · subst hreturn
    rcases (by simpa using h : w = ['\r'] ∨ w = ['\\', 'r']) with rfl | rfl
    · exact .inl ⟨rfl, hquote, hslash⟩
    · exact .inr ⟨'r', rfl, rfl⟩
  · exact .inl ⟨by simpa using h, hquote, hslash⟩

/-! ### Reading it back -/

/-- What is written for a character is read as one piece, which stands for the character and has no
flaw. -/
private theorem exists_piece_of_mem_spellings {c : Char} {w : List Char} (h : w ∈ spellings c) :
    ∃ p : Piece, p.text = w ∧ p.value = [c] ∧ (∀ skip, p.flaw? skip = none) ∧
      ∀ rest, body (w ++ rest) = (body rest).cons p := by
  rcases spellings_cases h with ⟨rfl, hquote, hslash⟩ | ⟨d, rfl, hd⟩
  · exact ⟨.plain c, rfl, rfl, fun _ => rfl, fun rest => body_plain_cons rest hquote hslash⟩
  · refine ⟨.escape d, rfl, ?_, fun skip => ?_, fun rest => rfl⟩
    · rw [Piece.value, hd, Option.getD_some]
    · rw [Piece.flaw?, hd]
      rfl

/-- **What was written is read back.** The body ends at the quotation mark behind the written text,
its pieces stand for the text, and none of them has a flaw. -/
theorem body_of_writes {v e : List Char} (h : Writes v e) (r : List Char) :
    ∃ pieces, body (e ++ '"' :: r) = ⟨pieces, true, r⟩ ∧ pieces.flatMap Piece.text = e ∧
      pieces.flatMap Piece.value = v ∧ ∀ skip, pieceFlaws skip pieces = [] := by
  induction h with
  | nil => exact ⟨[], rfl, rfl, rfl, fun _ => rfl⟩
  | @cons c v w e hw _ ih =>
    obtain ⟨pieces, hbody, htext, hvalue, hflaws⟩ := ih
    obtain ⟨p, hpt, hpv, hpf, hp⟩ := exists_piece_of_mem_spellings hw
    refine ⟨p :: pieces, ?_, ?_, ?_, fun skip => ?_⟩
    · rw [List.append_assoc, hp, hbody]
      rfl
    · rw [List.flatMap_cons, hpt, htext]
    · rw [List.flatMap_cons, hpv, hvalue]
      rfl
    · rw [pieceFlaws, hpf, hflaws]
      rfl

/-- A string whose body writes a text has this text for its literal. -/
private theorem quotation_of_writes {v e : List Char} (h : Writes v e) (r : List Char) :
    quotation ('"' :: (e ++ '"' :: r)) = ⟨.string, v, '"' :: (e ++ ['"']), r, []⟩ := by
  obtain ⟨pieces, hbody, htext, hvalue, hflaws⟩ := body_of_writes h r
  simp only [quotation, List.take_succ_cons, List.take_zero, List.drop_succ_cons, List.drop_zero,
    hbody, hvalue, hflaws, Body.text, Body.close, htext]
  rfl

end Lexeme

/-! ### The string at the front of a source -/

/-- The first call takes the lexeme at the front of a source that begins with neither a prologue nor
a gap. -/
private theorem Lexer.next_start (names : Namespaces) {source : String} {c : Char}
    {rest : List Char} (hsource : source.toList = c :: rest) (hplain : Trivia.Plain (c :: rest))
    (hclear : Trivia.Clear (c :: rest)) :
    let x := Lexeme.scan names c rest
    let first := (Lexer.start names source).next
    first.value = x.token Position.origin ∧ first.diagnostics = x.diagnostics Position.origin ∧
      first.lexer.cursor.ahead = x.rest ∧ first.lexer.cursor.pos = Position.after x.text := by
  intro x first
  let l := (Lexer.start names source).openSource.lexer
  have hopen : (Lexer.start names source).cursor.ahead = [] ++ c :: rest := hsource
  obtain ⟨hahead, hpos⟩ := Lexer.openSource_of_leads rfl hopen hplain.leads
  have hahead : l.cursor.ahead = c :: rest := hahead
  have hpos : l.cursor.pos = Position.origin := hpos
  have hscan : Trivia.scan l.cursor.ahead = ⟨[], c :: rest, none⟩ := by
    rw [hahead, Trivia.scan_of_clear hclear]
  have hnext := Lexer.next_of_rest_cons (l := l) rfl (by rw [hscan])
  rw [hscan, hpos] at hnext
  have hfirst : first = { l.next with notices := (Lexer.start names source).openSource.notices } :=
    Lexer.next_openSource _
  rw [hfirst]
  exact hnext

/-- **Strings give back what was written.** A source that begins with a text `v` written between
quotation marks has the string `v` for its first token, over the two marks and all between them, and
nothing is reported about it. The lexer is then in front of the text `r` behind the string, and the
other tokens and all reports are those of `r`, laid out from there. -/
theorem tokenize_writes (names : Namespaces) (v e r : String)
    (h : Lexeme.Writes v.toList e.toList) :
    let source := "\"" ++ e ++ "\"" ++ r
    let first := (Lexer.start names source).next
    let behind := Position.after ("\"" ++ e ++ "\"").toList
    let reading := tokenize names source
    first.value = ⟨.string, v, ⟨0, Text.byteLength e.toList + 2, 1, 1⟩⟩ ∧
      first.diagnostics = [] ∧
      first.lexer.cursor.ahead = r.toList ∧ first.lexer.cursor.pos = behind ∧
      reading.tokens = first.value :: first.lexer.drain.value ∧
      reading.diagnostics = first.lexer.drain.diagnostics ∧
      first.lexer.drain.value = (divide names r.toList).tokens behind ∧
      first.lexer.drain.diagnostics = (divide names r.toList).diagnostics behind := by
  intro source first behind reading
  have hsource : source.toList = '"' :: (e.toList ++ '"' :: r.toList) := by
    simp [source, String.toList_append]
  have hbehind : ("\"" ++ e ++ "\"").toList = '"' :: (e.toList ++ ['"']) := by
    simp [String.toList_append]
  -- a quotation mark begins neither a prologue nor a gap
  obtain ⟨hvalue, hreports, hahead, hpos⟩ := Lexer.next_start names hsource
    ⟨by simp [Trivia.byteOrderMark], by simp⟩ (Trivia.clear_cons _ (by decide) (by decide))
  rw [Lexeme.scan_quote, Lexeme.quotation_of_writes h] at hvalue hreports hahead hpos
  have htoken : first.value = ⟨.string, v, ⟨0, Text.byteLength e.toList + 2, 1, 1⟩⟩ := by
    have hsize : Text.byteLength ('"' :: (e.toList ++ ['"'])) = Text.byteLength e.toList + 2 := by
      have hmark : '"'.utf8Size = 1 := rfl
      simp only [Text.byteLength_cons, Text.byteLength_append, Text.byteLength_nil, hmark]
      omega
    rw [hvalue]
    simp only [Lexeme.token, Lexeme.span, Span.between, Position.offset_advance, Position.origin,
      String.ofList_toList, hsize, Nat.zero_add]
  have hpos : first.lexer.cursor.pos = behind := by rw [hpos, ← hbehind]
  obtain ⟨htokens, hdiagnostics, -⟩ := Lexer.drain_of_not_isEof (l := Lexer.start names source)
    (by rw [htoken]; rfl)
  obtain ⟨hdrain, hmore⟩ := Lexer.drain_of_opened first.lexer (Lexer.opened_next _)
  rw [Lexer.names_next, hahead, hpos] at hdrain hmore
  refine ⟨htoken, hreports, hahead, hpos, htokens, ?_, hdrain, hmore⟩
  rw [hreports] at hdiagnostics
  exact hdiagnostics

/-- A text with a quotation mark, two line feeds and a NUL that ends in a backslash, in front of a
string that is not closed. One line feed is written raw and the other one is not. -/
theorem tokenize_writes_trailing_backslash :
    Lexeme.Writes "\"\n\n\x00\\".toList "\\\"\\n\n\x00\\\\".toList ∧
      (tokenize .empty "\"\\\"\\n\n\x00\\\\\"\"").tokens.head? =
        some ⟨.string, "\"\n\n\x00\\", ⟨0, 10, 1, 1⟩⟩ := by
  have hwrites : Lexeme.Writes "\"\n\n\x00\\".toList "\\\"\\n\n\x00\\\\".toList :=
    .cons (w := ['\\', '"']) (by decide) <| .cons (w := ['\\', 'n']) (by decide) <|
      .cons (w := ['\n']) (by decide) <| .cons (w := ['\x00']) (by decide) <|
      .cons (w := ['\\', '\\']) (by decide) .nil
  obtain ⟨hvalue, -, -, -, htokens, -⟩ := tokenize_writes .empty _ _ "\"" hwrites
  refine ⟨hwrites, (congrArg List.head? htokens).trans ?_⟩
  rw [hvalue]
  rfl

end Lexis
