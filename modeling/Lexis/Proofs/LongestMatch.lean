import Lexis.Proofs.Reports
import Lexis.Proofs.Spelling

/-!
# Numbers are the longest match

A grammar of numbers, **apart from the scanner** (`Numeral`), and what its longest match at the
front of a text is (`Numeral.Longest`). The scanner looks at two characters only before it decides:
a zero and a base mark, or a point and a digit. Still it never takes less than the grammar allows,
and this is seen form by form:

* behind a base mark no decimal number can be longer than the zero, as the mark is no digit and no
  point (`Lexeme.longest_based`);
* elsewhere the whole part is the run of digits that is ahead, whatever form matches, and a match
  with a point has the point right behind this run (`Lexeme.longest_decimal`).
-/

namespace Lexis

open Lexis.CharClass

/-! ### The grammar of numbers -/

/-- The spellings of numbers. -/
inductive Numeral : List Char → Prop where
  /-- A zero, a base mark and hexadecimal digits, if there are any. -/
  | hex {mark : Char} {digits : List Char} : mark ∈ ['x', 'X'] →
      digits ⊆ "0123456789abcdefABCDEF".toList → Numeral ('0' :: mark :: digits)
  /-- A zero, a base mark and binary digits, if there are any. -/
  | bin {mark : Char} {digits : List Char} : mark ∈ ['b', 'B'] →
      digits ⊆ ['0', '1'] → Numeral ('0' :: mark :: digits)
  /-- Decimal digits. -/
  | whole {digits : List Char} : digits ≠ [] → (∀ d ∈ digits, d.isDigit = true) → Numeral digits
  /-- Decimal digits on both sides of a point. -/
  | fraction {whole part : List Char} : whole ≠ [] → (∀ d ∈ whole, d.isDigit = true) →
      part ≠ [] → (∀ d ∈ part, d.isDigit = true) → Numeral (whole ++ '.' :: part)

/-- No longer number stands at the front of the text. -/
def Numeral.Longest (text number : List Char) : Prop :=
  Numeral number ∧ number <+: text ∧ ∀ s, Numeral s → s <+: text → s.length ≤ number.length

/-- The digits of the base sixteen, in both cases of letters. -/
private theorem isHexDigit_iff (c : Char) :
    isHexDigit c = true ↔ c ∈ "0123456789abcdefABCDEF".toList := by
  constructor
  · intro h
    have hbounds : (48 ≤ c.toNat ∧ c.toNat ≤ 57 ∨ 97 ≤ c.toNat ∧ c.toNat ≤ 102) ∨
        65 ≤ c.toNat ∧ c.toNat ≤ 70 := by
      simpa [isHexDigit, Char.isDigit, Char.le_def, UInt32.le_iff_toNat_le] using h
    have hall : ∀ n < 128, isHexDigit (Char.ofNat n) = true →
        Char.ofNat n ∈ "0123456789abcdefABCDEF".toList := by decide +kernel
    have hc := hall c.toNat (by omega)
    rw [Char.ofNat_toNat] at hc
    exact hc h
  · have hall : ∀ d ∈ "0123456789abcdefABCDEF".toList, isHexDigit d = true :=
      List.all_iff_forall_prop.mp (by decide +kernel)
    exact hall c

private theorem isBinDigit_iff (c : Char) : isBinDigit c = true ↔ c ∈ ['0', '1'] := by
  simp [isBinDigit]

/-! ### Runs of digits -/

/-- A run that lies ahead is part of the whole run. -/
theorem prefix_takeWhile {test : Char → Bool} {s cs : List Char} (h : s <+: cs)
    (hs : ∀ c ∈ s, test c = true) : s <+: cs.takeWhile test := by
  obtain ⟨r, rfl⟩ := h
  rw [List.takeWhile_append_of_pos hs]
  exact List.prefix_append s _

/-- The point of a number stands behind the digits that are ahead, so the whole part is all of them
and the other digits are what follows. -/
private theorem runs_of_fraction {whole part cs : List Char}
    (hwhole : ∀ d ∈ whole, d.isDigit = true) (h : whole ++ '.' :: part <+: cs) :
    cs.takeWhile Char.isDigit = whole ∧
      ∃ more, cs.dropWhile Char.isDigit = '.' :: more ∧ part <+: more := by
  obtain ⟨r, rfl⟩ := h
  have hpoint : headIs Char.isDigit ('.' :: (part ++ r)) = false := rfl
  rw [List.append_assoc]
  exact ⟨takeWhile_append_of_headIs hwhole hpoint, part ++ r,
    dropWhile_append_of_headIs hwhole hpoint, List.prefix_append part r⟩

namespace Lexeme

/-! ### The forms of the grammar and the scanners -/

section Based

variable {mark : Char} {digit : Char → Bool} (hmark : basedDigit? mark = some digit)
include hmark

/-- A base mark and digits of its base make a number of the grammar. -/
private theorem numeral_based {digits : List Char} (h : ∀ d ∈ digits, digit d = true) :
    Numeral ('0' :: mark :: digits) := by
  rcases basedDigit?_cases hmark with ⟨hmem, rfl⟩ | ⟨hmem, rfl⟩
  · exact .hex hmem fun d hd => (isHexDigit_iff d).mp (h d hd)
  · exact .bin hmem fun d hd => (isBinDigit_iff d).mp (h d hd)

/-- A base mark is no part of a decimal number, and no digit is a point. -/
private theorem not_decimal_of_basedDigit? :
    mark.isDigit = false ∧ mark ≠ '.' ∧ digit '.' = false := by
  rcases basedDigit?_cases hmark with ⟨hmem, rfl⟩ | ⟨hmem, rfl⟩
  · rcases List.mem_pair.mp hmem with rfl | rfl <;> decide
  · rcases List.mem_pair.mp hmem with rfl | rfl <;> decide

end Based

/-- **A number by its form**, with a base mark and its digits as the scanner knows them. -/
theorem numeral_cases {s : List Char} (h : Numeral s) :
    (∃ mark digit digits, basedDigit? mark = some digit ∧ (∀ d ∈ digits, digit d = true) ∧
      s = '0' :: mark :: digits) ∨
    (∀ d ∈ s, d.isDigit = true) ∨
    ∃ whole part, (∀ d ∈ whole, d.isDigit = true) ∧ part ≠ [] ∧
      (∀ d ∈ part, d.isDigit = true) ∧ s = whole ++ '.' :: part := by
  cases h with
  | @hex mark digits hmark hdigits =>
    refine .inl ⟨mark, isHexDigit, digits, ?_, fun d hd => (isHexDigit_iff d).mpr (hdigits hd), rfl⟩
    rcases List.mem_pair.mp hmark with rfl | rfl <;> rfl
  | @bin mark digits hmark hdigits =>
    refine .inl ⟨mark, isBinDigit, digits, ?_, fun d hd => (isBinDigit_iff d).mpr (hdigits hd), rfl⟩
    rcases List.mem_pair.mp hmark with rfl | rfl <;> rfl
  | whole hne hdigits => exact .inr (.inl hdigits)
  | @fraction whole part hne hwhole hnonempty hpart =>
    exact .inr (.inr ⟨whole, part, hwhole, hnonempty, hpart, rfl⟩)

/-! ### The longest match -/

/-- A base mark decides: a match without it is the zero alone, which the mark and its digits
outdo. -/
private theorem longest_based {mark : Char} {digit : Char → Bool} (cs : List Char)
    (hmark : basedDigit? mark = some digit) :
    Numeral.Longest ('0' :: mark :: cs) ('0' :: mark :: cs.takeWhile digit) := by
  obtain ⟨hdigit, hpoint, -⟩ := not_decimal_of_basedDigit? hmark
  refine ⟨numeral_based hmark (fun _ => List.mem_takeWhile_imp), ?_, fun s hs hprefix => ?_⟩
  · simpa using List.takeWhile_prefix digit
  rcases numeral_cases hs with
    ⟨mark', digit', digits, hmark', hdigits, rfl⟩ | hdigits | ⟨whole, part, hwhole, -, -, rfl⟩
  · obtain ⟨rfl, hahead⟩ : mark' = mark ∧ digits <+: cs := by simpa using hprefix
    obtain rfl : digit' = digit := Option.some.inj (hmark'.symm.trans hmark)
    simpa using (prefix_takeWhile hahead hdigits).length_le
  · have hzero : ('0' :: mark :: cs).takeWhile Char.isDigit = ['0'] := by simp [hdigit]
    have hlength := (prefix_takeWhile hprefix hdigits).length_le
    rw [hzero, List.length_singleton] at hlength
    exact hlength.trans (Nat.succ_le_succ (Nat.zero_le _))
  · obtain ⟨-, more, hdrop, -⟩ := runs_of_fraction hwhole hprefix
    simp [hdigit, hpoint] at hdrop

/-- Without a base mark, the digits ahead are the whole part of every match. -/
private theorem prefix_cases {s cs : List Char} (hbased : startsBased cs = false) (hs : Numeral s)
    (h : s <+: cs) :
    s <+: cs.takeWhile Char.isDigit ∨
      ∃ part more, part ≠ [] ∧ part <+: more.takeWhile Char.isDigit ∧
        cs.dropWhile Char.isDigit = '.' :: more ∧ s = cs.takeWhile Char.isDigit ++ '.' :: part := by
  rcases numeral_cases hs with
    ⟨mark, digit, digits, hmark, -, rfl⟩ | hdigits | ⟨whole, part, hwhole, hne, hpart, rfl⟩
  · obtain ⟨r, rfl⟩ := h
    simp [startsBased, pairIs, hmark] at hbased
  · exact .inl (prefix_takeWhile h hdigits)
  · obtain ⟨hrun, more, hdrop, hahead⟩ := runs_of_fraction hwhole h
    exact .inr ⟨part, more, hne, prefix_takeWhile hahead hpart, hdrop, by rw [hrun]⟩

/-- Digits are taken as far as they go, then a point and the digits behind it if there are any. -/
private theorem longest_decimal {cs : List Char} (hdigit : headIs Char.isDigit cs = true)
    (hbased : startsBased cs = false) : Numeral.Longest cs (decimal [] cs).text := by
  have hrun : cs.takeWhile Char.isDigit ≠ [] := by
    cases cs with
    | nil => cases hdigit
    | cons c cs =>
      have hc : c.isDigit = true := hdigit
      simp [hc]
  have hall (text : List Char) : ∀ c ∈ text.takeWhile Char.isDigit, c.isDigit = true :=
    fun _ => List.mem_takeWhile_imp
  have htext : (decimal [] cs).text <+: cs := ⟨_, decimal_append [] cs⟩
  rcases hfraction : startsFraction (cs.dropWhile Char.isDigit) with _ | _
  · rw [decimal_of_not_startsFraction [] hfraction] at htext ⊢
    refine ⟨.whole hrun (hall cs), htext, fun s hs hprefix => ?_⟩
    rcases prefix_cases hbased hs hprefix with hwhole | ⟨part, more, hne, hpart, hdrop, -⟩
    · exact hwhole.length_le
    · -- the scanner would have seen the digit behind the point
      have hhead : headIs Char.isDigit more = false := by
        rw [hdrop, startsFraction, pairIs_cons] at hfraction
        simpa using hfraction
      rw [takeWhile_eq_nil_of_headIs hhead] at hpart
      exact absurd (List.prefix_nil.mp hpart) hne
  · obtain ⟨d, rest, hdrop, hd⟩ := exists_of_pairIs hfraction
    rw [decimal_of_startsFraction [] hdrop hd] at htext ⊢
    refine ⟨.fraction hrun (hall cs) (by simp [hd]) (hall (d :: rest)), htext,
      fun s hs hprefix => ?_⟩
    rcases prefix_cases hbased hs hprefix with hwhole | ⟨part, more, -, hpart, hdrop', rfl⟩
    · exact hwhole.length_le.trans (List.prefix_append _ _).length_le
    · obtain rfl : more = d :: rest := (List.cons.inj (hdrop'.symm.trans hdrop)).2
      have hlength := hpart.length_le
      simp only [List.length_append, List.length_cons]
      omega

/-- **The scanner finds the longest match**, with or without a base mark, as it looks for the one
that the text begins with. -/
theorem longest_number {c : Char} (rest : List Char) (h : c.isDigit = true) :
    Numeral.Longest (c :: rest) (number [] (c :: rest)).text := by
  rcases number_cases [] (c :: rest) with
    ⟨hbased, hnumber⟩ | ⟨mark, digit, cs, hcs, hdigit, hnumber⟩
  · rw [hnumber]
    exact longest_decimal h hbased
  · rw [hnumber, hcs]
    exact longest_based cs hdigit

/-! ### Kinds -/

/-- A number with a point is the one kind, any other number the other: neither digits nor base marks
are points. -/
private theorem kind_number_eq (cs : List Char) :
    (number [] cs).kind = if '.' ∈ (number [] cs).text then .float else .int := by
  have hrun : '.' ∉ cs.takeWhile Char.isDigit := fun hmem =>
    absurd (List.mem_takeWhile_imp hmem) (by decide)
  rcases number_cases [] cs with ⟨-, hnumber⟩ | ⟨mark, digit, rest, rfl, hdigit, hnumber⟩
  · rw [hnumber]
    rcases hfraction : startsFraction (cs.dropWhile Char.isDigit) with _ | _
    · rw [decimal_of_not_startsFraction [] hfraction, if_neg hrun]
    · obtain ⟨d, rest, hdrop, hd⟩ := exists_of_pairIs hfraction
      rw [decimal_of_startsFraction [] hdrop hd, if_pos (by simp)]
  · obtain ⟨-, hmark, hpoint⟩ := not_decimal_of_basedDigit? hdigit
    have hdigits : '.' ∉ rest.takeWhile digit := fun hmem =>
      absurd (List.mem_takeWhile_imp hmem) (by simp [hpoint])
    rw [hnumber, if_neg (by simp [based, hmark.symm, hdigits])]
    rfl

/-- Nothing but a number has the kind of one, so the first character decides whether a lexeme is a
number. -/
private theorem kind_scan_isNumber_iff (names : Namespaces) (c : Char) (rest : List Char) :
    (scan names c rest).kind ∈ [.int, .float] ↔ c.isDigit = true := by
  refine ⟨fun h => ?_, fun h => ?_⟩
  · have hscans := scans_scan names rest c
    generalize scan names c rest = x at h hscans
    cases hscans with
    | @symbol c s _ hs =>
      rcases kind_symbol s [] (c :: rest) with hk | ⟨d, longer, -, hk⟩ <;> simp [hk] at h
    | quotation => simp [quotation] at h
    | command => simp [kind_command] at h
    | number _ hdigit => exact hdigit
    | @word c _ hname =>
      have hword := kind_word names [] (c :: rest)
      rcases List.mem_pair.mp h with hk | hk <;> rw [hk] at hword <;> cases hword
    | illegal => simp [illegal] at h
  · rw [scan_of_isDigit names rest h]
    simpa using kind_number [] (c :: rest)

/-! ### Literals and reports -/

private theorem literal_number (cs : List Char) : (number [] cs).literal = (number [] cs).text := by
  have hkind := kind_number [] cs
  refine (found_number [] cs).literal ?_ ?_ <;> rcases hkind with h | h <;> simp [h]

/-- A base mark without a digit is reported, and nothing else is. That a number is such a mark can
be told from its literal. -/
private theorem problems_number_eq (cs : List Char) (p : Position) :
    let t := (number [] cs).token p
    ((number [] cs).diagnostics p).map Diagnostic.problem =
      if t.literal ∈ ["0x", "0X", "0b", "0B"] then [.error Code.invalidNumber t.span] else [] := by
  intro t
  have hkind : t.kind = if '.' ∈ (number [] cs).text then .float else .int := kind_number_eq cs
  rw [problems_number cs p [], Token.problems]
  by_cases hpoint : '.' ∈ (number [] cs).text
  · have hliteral : t.literal ∉ ["0x", "0X", "0b", "0B"] := by
      intro hmem
      obtain ⟨mark, hmark, hcs⟩ := ofList_mem_bare_iff.mp hmem
      rw [← literal_number, hcs] at hpoint
      obtain rfl : '.' = mark := by simpa using hpoint
      exact absurd hmark (by decide)
    rw [hkind, if_pos hpoint, if_neg hliteral]
  · rw [hkind, if_neg hpoint]

end Lexeme

/-! ### Numbers -/

/-- A call finds a number iff a digit is ahead. -/
private theorem Lexer.kind_next_isNumber_iff (l : Lexer) :
    l.next.value.kind ∈ [.int, .float] ↔
      headIs Char.isDigit l.skip.lexer.cursor.ahead = true := by
  rcases hahead : l.skip.lexer.cursor.ahead with _ | ⟨c, rest⟩
  · have hbegin : l.skip.lexer.begin.cursor.ahead = [] := hahead
    simp [Lexer.next, Lexer.token, hbegin, Token.eof, headIs]
  · rw [(Lexer.next_of_ahead_skip hahead).1]
    exact Lexeme.kind_scan_isNumber_iff l.names c rest

/-- A token of a stream is a number iff it starts at a digit, which is found in the source by the
offset of the token. -/
private theorem kind_isNumber_iff_of_mem {names : Namespaces} {source : String} {t : Token}
    (h : t ∈ (tokenize names source).tokens) :
    t.kind ∈ [.int, .float] ↔
      ∃ d more, Text.dropBytes t.span.start source.toList = some (d :: more) ∧
        d.isDigit = true := by
  obtain ⟨happ, -⟩ := Trivia.opens_prologue source.toList
  rw [(tokenize_eq names source).1] at h
  rcases exists_of_mem_tokens_divide names _ happ t h with rfl | ⟨front, c, rest, hcs, -, rfl, -⟩
  · have hstart : (Token.eof (Span.point (Position.after source.toList))).span.start =
        Text.byteLength source.toList := Position.offset_after _
    have hend := Text.dropBytes_append source.toList []
    rw [List.append_nil] at hend
    rw [hstart, hend]
    simp [Token.eof]
  · rw [Lexeme.start_token_after, ← hcs, Text.dropBytes_append]
    refine (Lexeme.kind_scan_isNumber_iff names c rest).trans ⟨fun hc => ⟨c, rest, rfl, hc⟩, ?_⟩
    rintro ⟨d, more, hmore, hd⟩
    cases hmore
    exact hd

/-- **A number is the longest match.** Where a digit is ahead, the next token is the longest number
at the front of the text; its kind tells whether there is a point in it, and it is reported iff it
is a base mark without a digit. There is no token of these kinds elsewhere, neither for a single
call nor in a whole stream. -/
theorem numbers_longest :
    (∀ (l : Lexer) (c : Char) (rest : List Char),
      l.skip.lexer.cursor.ahead = c :: rest → c.isDigit = true →
      let p := l.skip.lexer.cursor.pos
      let t := l.next.value
      let text := t.literal.toList
      Numeral.Longest (c :: rest) text ∧
      text ++ l.next.lexer.cursor.ahead = c :: rest ∧ l.next.lexer.cursor.pos = p.advance text ∧
      t.span = Span.between p (p.advance text) ∧
      t.kind = (if '.' ∈ text then .float else .int) ∧
      l.next.diagnostics.map Diagnostic.problem =
        if t.literal ∈ ["0x", "0X", "0b", "0B"] then [.error Code.invalidNumber t.span] else []) ∧
    (∀ l : Lexer, l.next.value.kind ∈ [.int, .float] ↔
      headIs Char.isDigit l.skip.lexer.cursor.ahead = true) ∧
    ∀ (names : Namespaces) (source : String), ∀ t ∈ (tokenize names source).tokens,
      t.kind ∈ [.int, .float] ↔
        ∃ d more, Text.dropBytes t.span.start source.toList = some (d :: more) ∧
          d.isDigit = true := by
  refine ⟨fun l c rest h hdigit => ?_, Lexer.kind_next_isNumber_iff,
    fun _ _ _ => kind_isNumber_iff_of_mem⟩
  intro p t text
  let x := Lexeme.number [] (c :: rest)
  obtain ⟨ht, hreports, hahead, hpos⟩ : t = x.token p ∧ l.next.diagnostics = x.diagnostics p ∧
      l.next.lexer.cursor.ahead = x.rest ∧ l.next.lexer.cursor.pos = p.advance x.text := by
    have hnext := Lexer.next_of_ahead_skip h
    rwa [Lexeme.scan_of_isDigit l.names rest hdigit] at hnext
  have htext : text = x.text := by
    have hliteral : text = x.literal := (congrArg (·.literal.toList) ht).trans String.toList_ofList
    rw [hliteral, Lexeme.literal_number]
  rw [htext, hahead, hpos, hreports, ht]
  exact ⟨Lexeme.longest_number rest hdigit, Lexeme.number_append [] (c :: rest), rfl, rfl,
    Lexeme.kind_number_eq (c :: rest), Lexeme.problems_number_eq (c :: rest) p⟩

/-- A base mark in front of a point: no form of a number gets beyond the mark. -/
theorem numbers_longest_bare_mark :
    let l := Lexer.start .empty " 0x.5"
    let text := l.next.value.literal.toList
    l.skip.lexer.cursor.ahead = "0x.5".toList ∧ text = ['0', 'x'] ∧
      Numeral.Longest "0x.5".toList text ∧ l.next.value.kind = .int ∧
      l.next.diagnostics.map Diagnostic.problem =
        [.error Code.invalidNumber l.next.value.span] := by
  intro l text
  have hahead : l.skip.lexer.cursor.ahead = "0x.5".toList := by decide +kernel
  have htext : text = ['0', 'x'] := by decide +kernel
  have hpoint : '.' ∉ text := by
    rw [htext]
    decide
  have hbare : l.next.value.literal ∈ ["0x", "0X", "0b", "0B"] := by decide +kernel
  obtain ⟨hlongest, -, -, -, hkind, hproblems⟩ :=
    numbers_longest.1 l '0' ['x', '.', '5'] hahead (by decide)
  rw [if_pos hbare] at hproblems
  exact ⟨hahead, htext, hlongest, hkind.trans (if_neg hpoint), hproblems⟩

end Lexis
