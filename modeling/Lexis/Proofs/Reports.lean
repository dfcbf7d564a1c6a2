import Lexis.Proofs.Ending
import Lexis.Proofs.Tiling

/-!
# Reports are the problems of the stream

What is reported about a source can be told from its tokens and its last mode alone: a character
that starts no token, a base mark without digits, an escape without a meaning (`Token.problems`),
and last what the source ends in (`Mode.open?`). There is no other report, none is missing and none
is made twice (`tokenize_reports`).

The problems are found **without the scanners**: escapes are counted along the text that a token
cuts out of the source, and what is open by one pass over the characters. The order of the reports
is then a consequence: tokens stand in their order, and the escapes of a string in theirs.
-/

namespace Lexis

/-! ### Problems -/

/-- What a diagnostic is about, without its words. -/
structure Problem where
  /-- Its stable name. -/
  code : Option Code
  /-- How grave it is. -/
  level : Level
  /-- Where it is. -/
  span : Span
deriving DecidableEq, Repr

/-- What the diagnostic is about. -/
def Diagnostic.problem (d : Diagnostic) : Problem :=
  ⟨d.code, d.level, d.span⟩

namespace Problem

/-- A problem that is an error. -/
def error (code : Code) (span : Span) : Problem :=
  ⟨some code, .error, span⟩

/-- A problem that is a warning. -/
def warning (code : Code) (span : Span) : Problem :=
  ⟨some code, .warning, span⟩

/-- The problem of a source that ends in something open: it reaches from the opener, `n` characters
before the end, to the end. -/
def unfinished (source : List Char) : Opening × Nat → Problem
  | (o, n) =>
    let opener := Position.after (source.take (source.length - n))
    error o.code (Span.between opener (Position.after source))

end Problem

/-- The escapes of a text from front to back, a backslash and the character behind it: the number of
characters in front of the escape, `n` of which stand in front of the text, and its second
character. -/
def Text.escapes (n : Nat) : List Char → List (Nat × Char)
  | '\\' :: c :: rest => (n, c) :: escapes (n + 2) rest
  | _ :: rest => escapes (n + 1) rest
  | [] => []

namespace Token

/-- The escapes in the text of a token: the second character and the span of each. -/
def escapes (source : List Char) (t : Token) : List (Char × Span) :=
  match Text.takeBytes t.span.start source, t.span.snippet? source with
  | some front, .ok text =>
    (Text.escapes 0 text).map fun e =>
      (e.2, Span.between (Position.after (front ++ text.take e.1))
        (Position.after (front ++ text.take (e.1 + 2))))
  | _, _ => []

/-- The problems of a token. -/
def problems (source : List Char) (t : Token) : List Problem :=
  match t.kind with
  | .illegal => [.error Code.unexpectedCharacter t.span]
  | .int => if t.literal ∈ ["0x", "0X", "0b", "0B"] then [.error Code.invalidNumber t.span] else []
  | .string =>
    ((t.escapes source).filter fun e => e.1 ∉ ['n', 't', 'r', '\\', '"']).map fun e =>
      .warning Code.unknownEscape e.2
  | _ => []

end Token

/-! ### Escapes -/

namespace Text

/-- A character that is no backslash belongs to no escape. -/
theorem escapes_cons {c : Char} (n : Nat) (rest : List Char) (h : c ≠ '\\') :
    escapes n (c :: rest) = escapes (n + 1) rest := by
  rw [escapes]
  rintro d more rfl
  exact absurd rfl h

/-- An escape is found where it stands: its backslash and its character, behind as many characters
as were counted. -/
theorem exists_of_mem_escapes {n : Nat} {s text : List Char} (h : s.length = n) :
    ∀ e ∈ escapes n text,
      ∃ before behind, s ++ text = before ++ '\\' :: e.2 :: behind ∧ before.length = e.1 := by
  fun_induction escapes n text generalizing s with
  | case1 n c rest ih =>
    rw [List.forall_mem_cons]
    refine ⟨⟨s, rest, rfl, h⟩, fun e he => ?_⟩
    obtain ⟨before, behind, happ, hlength⟩ := ih (s := s ++ ['\\', c]) (by simp [h]) e he
    exact ⟨before, behind, by rw [← happ, List.append_assoc]; rfl, hlength⟩
  | case2 n c rest _ ih =>
    intro e he
    obtain ⟨before, behind, happ, hlength⟩ := ih (s := s ++ [c]) (by simp [h]) e he
    exact ⟨before, behind, by rw [← happ, List.append_assoc]; rfl, hlength⟩
  | case3 => exact fun e he => absurd he List.not_mem_nil

/-- The text up to the end of an escape is the text up to its start and the escape. -/
private theorem take_of_mem_escapes {text : List Char} {e : Nat × Char} (h : e ∈ escapes 0 text) :
    text.take (e.1 + 2) = text.take e.1 ++ ['\\', e.2] := by
  obtain ⟨before, behind, happ, hlength⟩ := exists_of_mem_escapes (s := []) rfl e h
  rw [List.nil_append] at happ
  rw [happ, ← hlength, List.take_left, List.take_length_add_append]
  rfl

/-- Escapes are counted on from where the text starts. -/
private theorem le_of_mem_escapes {n : Nat} {text : List Char} : ∀ e ∈ escapes n text, n ≤ e.1 := by
  fun_induction escapes n text with
  | case1 n c rest ih =>
    rw [List.forall_mem_cons]
    exact ⟨le_rfl, fun e he => (Nat.le_add_right n 2).trans (ih e he)⟩
  | case2 n c rest _ ih => exact fun e he => (Nat.le_succ n).trans (ih e he)
  | case3 => exact fun e he => absurd he List.not_mem_nil

/-- Escapes are found from left to right. -/
private theorem pairwise_escapes (n : Nat) (text : List Char) :
    (escapes n text).Pairwise fun e f => e.1 ≤ f.1 := by
  fun_induction escapes n text with
  | case1 n c rest ih =>
    refine List.pairwise_cons.mpr ⟨fun e he => ?_, ih⟩
    exact (Nat.le_add_right n 2).trans (le_of_mem_escapes e he)
  | case2 n c rest _ ih => exact ih
  | case3 => exact .nil

end Text

namespace Lexeme

/-- Five characters have a meaning behind a backslash. -/
private theorem escaped?_isNone_iff (c : Char) :
    (escaped? c).isNone = true ↔ c ∉ ['n', 't', 'r', '\\', '"'] := by
  unfold escaped?
  split_ifs <;> simp_all

/-- The flaws inside a string are its escapes without a meaning. Both are counted along the body,
which the scanner cuts into pieces and the rule only scans for backslashes. -/
theorem pieceFlaws_body (n : Nat) (cs : List Char) :
    pieceFlaws n (body cs).pieces =
      ((Text.escapes n (body cs).text).filter fun e => e.2 ∉ ['n', 't', 'r', '\\', '"']).map
        fun e => .unknownEscape e.1 e.2 := by
  fun_induction body cs generalizing n with
  | case1 => rfl
  | case2 => rfl
  | case3 => rfl
  | case4 c rest ih =>
    rw [Body.pieces_cons, pieceFlaws, Body.text_cons, ih]
    simp only [Piece.text, List.cons_append, List.nil_append, Text.escapes, Piece.flaw?,
      escaped?_isNone_iff, List.filter_cons, List.length_cons, List.length_nil, decide_eq_true_eq]
    split <;> rfl
  | case5 c rest hquote hlone hescape ih =>
    have hslash := ne_backslash hlone hescape
    rw [Body.pieces_cons, pieceFlaws, Body.text_cons, ih, Piece.text, List.singleton_append,
      Text.escapes_cons n _ hslash]
    rfl

end Lexeme

/-! ### The problems of a lexeme -/

private theorem Token.escapes_token_after (x : Lexeme) (front back : List Char) :
    (x.token (Position.after front)).escapes (front ++ (x.text ++ back)) =
      (Text.escapes 0 x.text).map fun e =>
        (e.2, Span.between (Position.after (front ++ x.text.take e.1))
          (Position.after (front ++ x.text.take (e.1 + 2)))) := by
  rw [Token.escapes, x.start_token_after, Text.takeBytes_append, x.snippet?_token_after]

namespace Lexeme

/-- The problem of something that a lexeme leaves open: it covers the lexeme. -/
def openProblem (x : Lexeme) (p : Position) : List Problem :=
  (x.unfinished?.map fun e => Problem.error e.1.code (x.span p)).toList

/-- What a lexeme at the end of `front` reports: the problems of its token, then what it leaves
open. -/
def Reported (x : Lexeme) (front : List Char) : Prop :=
  let p := Position.after front
  (x.diagnostics p).map Diagnostic.problem =
    (x.token p).problems (front ++ (x.text ++ x.rest)) ++ x.openProblem p

variable (front : List Char)

/-- Nothing is reported about a lexeme without flaws whose kind has no problems, as both sides of
the report are empty. -/
private theorem reported_of_flaws_eq_nil {x : Lexeme} (hflaws : x.flaws = [])
    (hproblems : ∀ p source, (x.token p).problems source = []) : x.Reported front := by
  have hopen : x.unfinished? = none := by
    rw [unfinished?, hflaws, List.findSome?_nil, Option.map_none]
  simp [Reported, diagnostics, openProblem, hflaws, hopen, hproblems]

private theorem reported_symbol (s : Symbol) (cs : List Char) :
    (symbol s [] cs).Reported front := by
  refine reported_of_flaws_eq_nil front (flaws_symbol s [] cs) fun p source => ?_
  rcases kind_symbol s [] cs with h | ⟨d, longer, -, h⟩ <;> simp [Token.problems, token, h]

private theorem reported_word (names : Namespaces) (cs : List Char) :
    (word names [] cs).Reported front := by
  refine reported_of_flaws_eq_nil front (flaws_word names [] cs) fun p source => ?_
  have hword := kind_word names [] cs
  simp only [Token.problems, token]
  cases hkind : (word names [] cs).kind <;> simp_all [Kind.isWord]

private theorem reported_illegal (c : Char) (rest : List Char) :
    (illegal c rest).Reported front := rfl

/-- All that is reported about a command is that it is not closed, and this is a problem of the
text. -/
private theorem reported_command (rest : List Char) :
    (command (backtick :: rest)).Reported front := by
  have hproblems : ∀ p source, ((command (backtick :: rest)).token p).problems source = [] := by
    intro p source
    simp [Token.problems, token, kind_command]
  simp only [Reported, openProblem, hproblems, unfinished?_command, diagnostics]
  rcases hdrop : rest.dropWhile (· != backtick) with _ | ⟨d, t⟩
  · simp [command, hdrop]
    rfl
  · rw [command_of_dropWhile hdrop]
    rfl

/-- An escape without a meaning is reported where it stands in the text. -/
private theorem problem_unknownEscape {text : List Char} {e : Nat × Char}
    (h : e ∈ Text.escapes 0 text) (token : Span) (p : Position) :
    ((Flaw.unknownEscape e.1 e.2).diagnostic token p text).problem =
      .warning Code.unknownEscape
        (Span.between (p.advance (text.take e.1)) (p.advance (text.take (e.1 + 2)))) := by
  simp only [Flaw.diagnostic, Diagnostic.problem, Problem.warning, Position.advance_append,
    Text.take_of_mem_escapes h]

/-- What is reported about a string that starts anywhere: its escapes without a meaning, and then
that it is not closed. -/
theorem problems_quotation (rest : List Char) (p : Position) :
    let x := quotation ('"' :: rest)
    (x.diagnostics p).map Diagnostic.problem =
      (((Text.escapes 0 x.text).filter fun e => e.2 ∉ ['n', 't', 'r', '\\', '"']).map fun e =>
        .warning Code.unknownEscape
          (Span.between (p.advance (x.text.take e.1)) (p.advance (x.text.take (e.1 + 2))))) ++
        if (body rest).closed then [] else [.error Code.unterminatedString (x.span p)] := by
  intro x
  have hflaws : x.flaws = pieceFlaws 1 (body rest).pieces ++
      if (body rest).closed then [] else [.unterminatedString] := rfl
  have hescapes : Text.escapes 0 x.text = Text.escapes 1 (body rest).text :=
    Text.escapes_cons 0 _ (by decide)
  rw [diagnostics, List.map_map, hflaws, List.map_append, pieceFlaws_body, ← hescapes, List.map_map]
  congr 1
  · refine List.map_congr_left fun e he => ?_
    exact problem_unknownEscape (List.mem_filter.mp he).1 (x.span p) p
  · split <;> rfl

/-- About a string its escapes without a meaning are reported, and last that it is not closed, which
is the problem of the text and not of the token. -/
private theorem reported_quotation (rest : List Char) :
    (quotation ('"' :: rest)).Reported front := by
  set x := quotation ('"' :: rest) with hx
  have hkind : ∀ p, (x.token p).kind = .string := fun _ => rfl
  -- the problems of the token are its escapes,
  have hinner : (x.token (Position.after front)).problems (front ++ (x.text ++ x.rest)) =
      ((Text.escapes 0 x.text).filter fun e => e.2 ∉ ['n', 't', 'r', '\\', '"']).map fun e =>
        .warning Code.unknownEscape (Span.between (Position.after (front ++ x.text.take e.1))
          (Position.after (front ++ x.text.take (e.1 + 2)))) := by
    rw [Token.problems, hkind, Token.escapes_token_after, List.filter_map, List.map_map]
    rfl
  -- and what comes behind them is what the string leaves open
  have hopen : x.openProblem (Position.after front) = if (body rest).closed then [] else
      [.error Code.unterminatedString (x.span (Position.after front))] := by
    rw [openProblem, hx, unfinished?_quotation]
    split <;> rfl
  rw [Reported, problems_quotation, hinner, hopen]
  simp only [Position.advance_after]
  rfl

/-- The literals of base marks without digits. -/
theorem ofList_mem_bare_iff {cs : List Char} :
    String.ofList cs ∈ ["0x", "0X", "0b", "0B"] ↔
      ∃ mark ∈ ['x', 'X', 'b', 'B'], cs = ['0', mark] := by
  simp [← String.toList_inj]

section Numbers

variable (cs : List Char) (p : Position) (source : List Char)

/-- Nothing is wrong with a decimal number: with or without a fraction, it is not spelled like a
base mark. -/
private theorem problems_decimal : ((decimal [] cs).diagnostics p).map Diagnostic.problem =
    ((decimal [] cs).token p).problems source := by
  have hnone : (decimal [] cs).diagnostics p = [] := by
    rw [diagnostics, flaws_decimal, List.map_nil]
  rw [hnone, List.map_nil]
  rcases hfraction : startsFraction (cs.dropWhile Char.isDigit) with _ | _
  · -- no base mark is a digit
    have hliteral : String.ofList (cs.takeWhile Char.isDigit) ∉ ["0x", "0X", "0b", "0B"] := by
      rw [ofList_mem_bare_iff]
      rintro ⟨mark, hmark, htake⟩
      have hmem : mark ∈ cs.takeWhile Char.isDigit := by simp [htake]
      have hdigit : mark.isDigit = true := List.mem_takeWhile_imp hmem
      have hnot : ∀ m ∈ ['x', 'X', 'b', 'B'], m.isDigit = false :=
        List.all_iff_forall_prop.mp (by decide)
      rw [hnot mark hmark] at hdigit
      cases hdigit
    rw [decimal_of_not_startsFraction [] hfraction]
    exact (if_neg hliteral).symm
  · obtain ⟨d, rest, hdrop, hd⟩ := exists_of_pairIs hfraction
    rw [decimal_of_startsFraction [] hdrop hd]
    rfl

/-- All that can be wrong with a number in a base is that it has no digits. Then it is the base mark
alone, and this can be seen from its literal. -/
private theorem problems_based {mark : Char} {digit : Char → Bool}
    (hmark : basedDigit? mark = some digit) :
    ((based digit [] mark cs).diagnostics p).map Diagnostic.problem =
      ((based digit [] mark cs).token p).problems source := by
  have hkind : ((based digit [] mark cs).token p).kind = .int := rfl
  have hliteral : ((based digit [] mark cs).token p).literal ∈ ["0x", "0X", "0b", "0B"] ↔
      cs.takeWhile digit = [] := by
    refine ofList_mem_bare_iff.trans ⟨?_, fun hdigits => ?_⟩
    · rintro ⟨m, -, hm⟩
      exact (List.cons.inj (List.cons.inj hm).2).2
    · have hmem : mark ∈ ['x', 'X', 'b', 'B'] := by
        rcases basedDigit?_cases hmark with ⟨hmem, -⟩ | ⟨hmem, -⟩
        · exact List.mem_append_left ['b', 'B'] hmem
        · exact List.mem_append_right ['x', 'X'] hmem
      exact ⟨mark, hmem, by simp [based, hdigits]⟩
  simp only [Token.problems, hkind, hliteral]
  by_cases hdigits : cs.takeWhile digit = []
  · simp only [diagnostics, based, hdigits]
    rfl
  · simp [diagnostics, based, hdigits]

/-- What is reported about a number that starts anywhere. -/
theorem problems_number : ((number [] cs).diagnostics p).map Diagnostic.problem =
    ((number [] cs).token p).problems source := by
  rcases number_cases [] cs with ⟨-, hnumber⟩ | ⟨mark, digit, rest, -, hdigit, hnumber⟩
  · rw [hnumber]
    exact problems_decimal cs p source
  · rw [hnumber]
    exact problems_based rest p source hdigit

end Numbers

/-- About a number it is reported that its base mark has no digits behind it. -/
private theorem reported_number (cs : List Char) : (number [] cs).Reported front := by
  have hopen : (number [] cs).unfinished? = none := unfinished?_of_not_isOpen (isOpen_number [] cs)
  rw [Reported, problems_number, openProblem, hopen]
  exact (List.append_nil _).symm

/-- **A lexeme reports the problems of its token** and what it leaves open, whichever scanner finds
it. -/
theorem reported_scan (names : Namespaces) (c : Char) (rest : List Char) :
    (scan names c rest).Reported front := by
  have hscans := scans_scan names rest c
  generalize scan names c rest = x at hscans
  cases hscans with
  | symbol => exact reported_symbol front _ _
  | quotation => exact reported_quotation front rest
  | command => exact reported_command front rest
  | number => exact reported_number front _
  | word => exact reported_word front names _
  | illegal => exact reported_illegal front _ rest

/-- What leaves something open takes all that follows. -/
private theorem rest_of_unfinished? {names : Namespaces} {c : Char} {rest : List Char}
    {e : Opening × Nat} (h : (scan names c rest).unfinished? = some e) :
    (scan names c rest).rest = [] ∧ e.2 = (scan names c rest).text.length := by
  obtain ⟨o, ho, rfl⟩ := Option.map_eq_some_iff.mp h
  obtain ⟨f, hf, hopening⟩ := List.exists_of_findSome?_eq_some ho
  have hopen : f.isOpen = true := by rw [← f.isSome_opening?, hopening, Option.isSome_some]
  exact ⟨rest_of_isOpen (List.any_eq_true.mpr ⟨f, hf, hopen⟩), rfl⟩

end Lexeme

/-! ### The problems of a source -/

/-- What is open at the end of a source reaches from its opener to the end. -/
private theorem Problem.unfinished_append (o : Opening) (front text : List Char) :
    Problem.unfinished (front ++ text) (o, text.length) =
      .error o.code (Span.between (Position.after front) (Position.after (front ++ text))) := by
  have hlength : (front ++ text).length - text.length = front.length := by
    rw [List.length_append, Nat.add_sub_cancel]
  simp only [Problem.unfinished, hlength, List.take_left]

/-- What a lexeme leaves open at the end of a source is reported over the whole lexeme. -/
private theorem Lexeme.unfinished_append (x : Lexeme) (front : List Char) {e : Opening × Nat}
    (h : e.2 = x.text.length) :
    Problem.unfinished (front ++ x.text) e = .error e.1.code (x.span (Position.after front)) := by
  obtain ⟨o, n⟩ := e
  obtain rfl : n = x.text.length := h
  rw [Problem.unfinished_append, Lexeme.span, Position.advance_after]

/-- A gap at the end of a source reports what it leaves open, which reaches to the end of it. -/
private theorem Gap.problems_diagnostics (gap : Gap) (behind : List Char) :
    (gap.diagnostics (Position.after behind)).map Diagnostic.problem =
      (gap.unfinished?.map (Problem.unfinished (behind ++ gap.text))).toList := by
  rcases hopen : gap.unclosed with _ | skip
  · simp [Gap.diagnostics, Gap.unfinished?, hopen]
  · have hsource : behind ++ gap.text = behind ++ gap.text.take skip ++ gap.text.drop skip := by
      rw [List.append_assoc, List.take_append_drop]
    have hproblem := Problem.unfinished_append .comment (behind ++ gap.text.take skip)
      (gap.text.drop skip)
    rw [← hsource, List.length_drop] at hproblem
    simp only [Gap.diagnostics, Gap.unfinished?, hopen, Option.map_some, Option.toList_some,
      List.map_singleton, hproblem, Position.advance_after]
    rfl

/-- **A division reports the problems of its tokens**, and last what it leaves open. By induction on
the division; the text behind grows by each gap and each lexeme. -/
theorem problems_divide (names : Namespaces) (cs : List Char) {behind source : List Char}
    (h : behind ++ cs = source) :
    ((divide names cs).diagnostics (Position.after behind)).map Diagnostic.problem =
      ((divide names cs).tokens (Position.after behind)).flatMap (Token.problems source) ++
        ((divide names cs).unfinished?.map (Problem.unfinished source)).toList := by
  fun_induction divide names cs generalizing behind with
  | case1 cs hrest =>
    have htext : (Trivia.scan cs).text = cs := by
      simpa [hrest] using Trivia.scan_append cs
    have hproblems := (Trivia.scan cs).problems_diagnostics behind
    rw [htext, h] at hproblems
    exact hproblems
  | case2 cs c rest hrest ih =>
    set x := Lexeme.scan names c rest with hx
    set front := behind ++ (Trivia.scan cs).text with hfront
    have hgap : (Trivia.scan cs).text ++ (x.text ++ x.rest) = cs := by
      rw [Lexeme.scan_append, ← hrest, Trivia.scan_append]
    have hsource : front ++ (x.text ++ x.rest) = source := by
      rw [hfront, List.append_assoc, hgap, h]
    have hclosed : (Trivia.scan cs).unclosed = none := Trivia.unclosed_of_rest_eq_cons hrest
    have hlexeme : (x.diagnostics (Position.after front)).map Diagnostic.problem =
        (x.token (Position.after front)).problems source ++
          x.openProblem (Position.after front) := by
      rw [← hsource]
      exact Lexeme.reported_scan front names c rest
    have ih := ih (show front ++ x.text ++ x.rest = source by rw [← hsource, List.append_assoc])
    simp only [Division.diagnostics, Division.tokens, Position.advance_after,
      Gap.diagnostics_of_unclosed_eq_none hclosed, List.nil_append, List.map_append,
      List.flatMap_cons, ← hfront, hlexeme, ih, List.append_assoc]
    congr 1
    rcases hopen : x.unfinished? with _ | e
    · simp [Lexeme.openProblem, Division.unfinished?, hopen]
    · -- nothing follows what is open, and it reaches to the end of the source
      obtain ⟨hnil, hsize⟩ := Lexeme.rest_of_unfinished? hopen
      have hmore : divide names x.rest = .ending ⟨[], [], none⟩ := by rw [hnil, divide_nil]
      have hproblem :
          Problem.unfinished source e = .error e.1.code (x.span (Position.after front)) := by
        rw [hnil, List.append_nil] at hsource
        rw [← hsource]
        exact x.unfinished_append front hsize
      simp only [hmore, Lexeme.openProblem, Division.unfinished?, hopen, Option.map_some,
        Option.some_or, hproblem]
      rfl

/-! ### The order of the reports -/

namespace Text

/-- What is cut off has the length that was asked for. -/
theorem byteLength_of_takeBytes {n : Nat} {text front : List Char}
    (h : takeBytes n text = some front) : byteLength front = n := by
  fun_induction takeBytes n text generalizing front with
  | case1 => cases h; rfl
  | case2 => cases h
  | case3 n c text hc ih =>
    obtain ⟨more, hmore, rfl⟩ := Option.map_eq_some_iff.mp h
    rw [byteLength_cons, ih hmore]
    omega
  | case4 => cases h

/-- More characters have at least as many bytes. -/
private theorem byteLength_take_mono (text : List Char) {m n : Nat} (h : m ≤ n) :
    byteLength (text.take m) ≤ byteLength (text.take n) := by
  obtain ⟨back, hback⟩ := List.take_prefix_take_left h (l := text)
  rw [← hback, byteLength_append]
  omega

private theorem byteLength_take_le (text : List Char) (n : Nat) :
    byteLength (text.take n) ≤ byteLength text := by
  obtain ⟨back, hback⟩ := List.take_prefix n text
  conv => rhs; rw [← hback]
  rw [byteLength_append]
  omega

end Text

/-- A span that cuts a text out of a source runs forward over it, and ends as many bytes further. -/
private theorem Span.stop_of_snippet? {s : Span} {source text : List Char}
    (h : s.snippet? source = .ok text) : s.stop = s.start + Text.byteLength text := by
  unfold Span.snippet? Text.slice at h
  split at h
  · next found hslice =>
    cases h
    split_ifs at hslice with hle
    obtain ⟨rest, -, htake⟩ := Option.bind_eq_some_iff.mp hslice
    rw [Text.byteLength_of_takeBytes htake]
    omega
  · cases h

namespace Token

/-- Escapes lie in their token, one behind the other, and each of them takes two characters. -/
private theorem bounds_escapes (source : List Char) (t : Token) :
    (∀ e ∈ t.escapes source, t.span.start ≤ e.2.stop ∧ e.2.stop ≤ t.span.stop) ∧
      (t.escapes source).Pairwise fun e f => e.2.stop ≤ f.2.stop := by
  unfold escapes
  split
  · next front text hfront hsnippet =>
    have hstart := Text.byteLength_of_takeBytes hfront
    have hstop := Span.stop_of_snippet? hsnippet
    have hoffset : ∀ n : Nat, (Position.after (front ++ text.take n)).offset =
        t.span.start + Text.byteLength (text.take n) := by
      intro n
      rw [Position.offset_after, Text.byteLength_append, hstart]
    simp only [List.forall_mem_map, List.pairwise_map, Span.between, hoffset, hstop]
    refine ⟨fun e he => ⟨Nat.le_add_right _ _, ?_⟩, ?_⟩
    · exact Nat.add_le_add_left (Text.byteLength_take_le text _) _
    · refine (Text.pairwise_escapes 0 text).imp fun hle => ?_
      exact Nat.add_le_add_left (Text.byteLength_take_mono text (Nat.add_le_add_right hle 2)) _
  · exact ⟨fun e he => absurd he List.not_mem_nil, .nil⟩

/-- The problems of a token end inside of it, one behind the other. Other problems than escapes end
with the token itself. -/
private theorem bounds_problems (source : List Char) {t : Token} (h : t.span.start ≤ t.span.stop) :
    (∀ p ∈ t.problems source, t.span.start ≤ p.span.stop ∧ p.span.stop ≤ t.span.stop) ∧
      (t.problems source).Pairwise fun p q => p.span.stop ≤ q.span.stop := by
  obtain ⟨hbounds, hpairwise⟩ := bounds_escapes source t
  have hone : ∀ code, (∀ p ∈ [Problem.error code t.span],
      t.span.start ≤ p.span.stop ∧ p.span.stop ≤ t.span.stop) := by
    intro code p hp
    obtain rfl := List.mem_singleton.mp hp
    exact ⟨h, le_rfl⟩
  unfold problems
  split
  · exact ⟨hone _, List.pairwise_singleton _ _⟩
  · split
    · exact ⟨hone _, List.pairwise_singleton _ _⟩
    · exact ⟨fun p hp => absurd hp List.not_mem_nil, .nil⟩
  · rw [List.forall_mem_map, List.pairwise_map]
    exact ⟨fun e he => hbounds e (List.mem_filter.mp he).1, hpairwise.filter _⟩
  · exact ⟨fun p hp => absurd hp List.not_mem_nil, .nil⟩

end Token

/-- Where tokens stand in their order, their problems do, too, as none of them ends outside its
token. -/
private theorem pairwise_problems {source behind ahead : List Char} {ts : List Token}
    (h : Tiles source behind ahead ts) (happ : behind ++ ahead = source)
    (last : Option (Opening × Nat)) :
    (ts.flatMap (Token.problems source) ++ (last.map (Problem.unfinished source)).toList).Pairwise
      fun p q => p.span.stop ≤ q.span.stop := by
  have hbounds := h.bounds happ
  refine List.pairwise_append.mpr ⟨?_, ?_, fun p hp q hq => ?_⟩
  · refine List.pairwise_flatMap.mpr ⟨fun t ht => ?_, ?_⟩
    · exact (Token.bounds_problems source (hbounds t ht).1).2
    · refine h.pairwise.imp_of_mem fun ht hu hle p hp q hq => ?_
      have hp := ((Token.bounds_problems source (hbounds _ ht).1).1 p hp).2
      have hq := ((Token.bounds_problems source (hbounds _ hu).1).1 q hq).1
      exact hp.trans (hle.trans hq)
  · cases last <;> simp
  · obtain ⟨t, ht, hp⟩ := List.mem_flatMap.mp hp
    obtain ⟨e, -, rfl⟩ := Option.map_eq_some_iff.mp (Option.mem_toList.mp hq)
    have hp := ((Token.bounds_problems source (hbounds t ht).1).1 p hp).2
    refine (hp.trans (hbounds t ht).2.2.le).trans (le_of_eq ?_)
    exact (Position.offset_after source).symm

/-- **Reports are exactly the problems of the stream.** What a reading reports to a fresh log has
the code, the level and the span of a problem: first come the problems of the tokens, in the order
of the stream, and last what the source ends in, which reaches from its opener to the end of the
source. No report ends before the one in front of it. -/
theorem tokenize_reports (names : Namespaces) (source : String) :
    let cs := source.toList
    let tokens := (tokenize names source).tokens
    let reports := (Log.empty.tokenize names source).2.diagnostics
    let last := (Mode.ofText cs).open?
    reports.map Diagnostic.problem =
        tokens.flatMap (Token.problems cs) ++ (last.map (Problem.unfinished cs)).toList ∧
      (∀ o n, last = some (o, n) → n ≤ cs.length ∧ o.mark <+: cs.drop (cs.length - n)) ∧
      reports.Pairwise fun d e => d.span.stop ≤ e.span.stop := by
  intro cs tokens reports last
  obtain ⟨happ, -⟩ := Trivia.opens_prologue cs
  obtain ⟨htokens, hreports⟩ := tokenize_eq names source
  have hlast : last = (divide names (Trivia.content cs)).unfinished? := open?_ofText names cs
  have hlog : reports = (tokenize names source).diagnostics := List.nil_append _
  have hproblems : reports.map Diagnostic.problem =
      tokens.flatMap (Token.problems cs) ++ (last.map (Problem.unfinished cs)).toList := by
    rw [hlog, hreports, hlast]
    have hdivide := problems_divide names (Trivia.content cs) happ
    rwa [← htokens] at hdivide
  have htiles : Tiles cs (Trivia.prologue cs).text (Trivia.content cs) tokens := by
    have h := tiles_divide names (Trivia.content cs) happ
    rwa [← htokens] at h
  refine ⟨hproblems, fun o n h => Mode.mark_isPrefix h, ?_⟩
  -- a report and its problem have the same span:
  have hpairwise := pairwise_problems htiles happ last
  rw [← hproblems, List.pairwise_map] at hpairwise
  exact hpairwise

end Lexis
