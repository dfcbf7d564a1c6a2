import Lexis.Proofs.Reports
import Mathlib.Data.List.Basic

/-!
# How tokens are spelled

Each kind of token has its spellings, and `Kind.Spells` says which, **without the scanners**: a
symbol has one, a word is reserved or it is not, a name holds at most one point and only behind a
namespace, a command holds no backtick, and an illegal token is a character that could not have
started anything else. The literal of every token is such a spelling (`Lexeme.spells_scan`), and it
is the text that the token covers, unless the token is a string, a command or the end of the input
(`Lexeme.Found`).

What stands *behind* a token matters for symbols alone: none is followed by a character that would
have made it longer (`Lexeme.maximal_scan`).
-/

namespace Lexis

open Lexis.CharClass

/-! ### What the scanners find -/

/-- The flaw lies inside the text. -/
def Flaw.Inside (text : List Char) : Flaw → Prop
  | unknownEscape skip c => text.take skip ++ ['\\', c] <+: text
  | _ => True

namespace Lexeme

/-- `x` can be found in front of `cs` with `pending` before it: it takes a front part of `cs`, its
flaws lie inside, and its literal is its spelling together with what was pending, unless it is
decoded or stripped of its marks. -/
structure Found (pending cs : List Char) (x : Lexeme) : Prop where
  append : x.text ++ x.rest = cs
  literal : x.kind ≠ .string → x.kind ≠ .command → x.literal = pending ++ x.text
  flaws : ∀ f ∈ x.flaws, f.Inside x.text

section Found

variable (pending cs : List Char)

/-- A symbol is the first character, and the second one if it extends the symbol. -/
theorem found_symbol (s : Symbol) : Found pending cs (symbol s pending cs) where
  append := symbol_append s pending cs
  literal _ _ := by fun_cases symbol s pending cs <;> simp
  flaws f hf := by
    rw [flaws_symbol] at hf
    cases hf

private theorem found_decimal : Found pending cs (decimal pending cs) where
  append := decimal_append pending cs
  literal _ _ := by
    unfold decimal
    split
    · split <;> rfl
    · rfl
  flaws f hf := by
    rw [flaws_decimal] at hf
    cases hf

private theorem found_based (digit : Char → Bool) (mark : Char) :
    Found pending ('0' :: mark :: cs) (based digit pending mark cs) where
  append := by simp [based, List.takeWhile_append_dropWhile]
  literal _ _ := rfl
  flaws f hf := by
    simp only [based] at hf
    split_ifs at hf
    · obtain rfl := List.mem_singleton.mp hf
      trivial
    · cases hf

/-- A number is found in front of the text, in either form. -/
theorem found_number : Found pending cs (number pending cs) := by
  rcases number_cases pending cs with ⟨-, hnumber⟩ | ⟨mark, digit, rest, rfl, -, hnumber⟩
  · rw [hnumber]
    exact found_decimal pending cs
  · rw [hnumber]
    exact found_based pending rest digit mark

/-- An escape without a meaning is found inside the string, whatever its opening mark is, at the
offset that is reported for it. -/
theorem found_quotation : Found pending cs (quotation cs) where
  append := quotation_append cs
  literal h := absurd rfl h
  flaws f hf := by
    rcases List.mem_append.mp hf with hpiece | hend
    · rw [pieceFlaws_body] at hpiece
      obtain ⟨e, he, rfl⟩ := List.mem_map.mp hpiece
      obtain ⟨before, behind, happ, hlength⟩ :=
        Text.exists_of_mem_escapes (s := cs.take 1) rfl e (List.mem_filter.mp he).1
      refine ⟨behind, ?_⟩
      have htext : (quotation cs).text = before ++ '\\' :: e.2 :: behind := happ
      rw [htext, ← hlength, List.take_left, List.append_assoc]
      rfl
    · split_ifs at hend
      · cases hend
      · obtain rfl := List.mem_singleton.mp hend
        trivial

theorem found_command : Found pending cs (command cs) where
  append := command_append cs
  literal _ h := absurd (kind_command cs) h
  flaws f hf := by
    unfold command at hf
    split at hf
    · obtain rfl := List.mem_singleton.mp hf
      trivial
    · cases hf

theorem found_word (names : Namespaces) : Found pending cs (word names pending cs) where
  append := word_append names pending cs
  literal _ _ := by
    unfold word
    split <;> rfl
  flaws f hf := by
    rw [flaws_word] at hf
    cases hf

end Found

/-- A character that starts nothing is found by itself. -/
private theorem found_illegal (c : Char) (rest : List Char) :
    Found [] (c :: rest) (illegal c rest) where
  append := rfl
  literal _ _ := rfl
  flaws f hf := by
    obtain rfl := List.mem_singleton.mp hf
    trivial

/-- **What is scanned is found in front of the text**: it is spelled by it, has flaws inside it
only, and leaves the rest of it over. -/
theorem found_scan (names : Namespaces) (c : Char) (rest : List Char) :
    Found [] (c :: rest) (scan names c rest) := by
  have hscans := scans_scan names rest c
  generalize scan names c rest = x at hscans
  cases hscans with
  | symbol => exact found_symbol _ _ _
  | quotation => exact found_quotation _ _
  | command => exact found_command _ _
  | number => exact found_number _ _
  | word => exact found_word _ _ _
  | illegal => exact found_illegal _ _

end Lexeme

/-! ### Spellings -/

/-- The text is a literal of tokens of the kind, where the given namespaces are in force. -/
def Kind.Spells (names : Namespaces) : Kind → String → Prop
  | symbol s, w => w = (symbol s).label
  | keyword k, w => w = k.spelling ∧ ofWord w = keyword k
  | ident, w =>
    (∀ k : Keyword, w ≠ k.spelling) ∧ w.toList.count '.' ≤ 1 ∧
      ∀ before after, w.toList = before ++ '.' :: after →
        names.contains (String.ofList before) = true ∧ headIs isNameStart after = true
  | command, w => Lexeme.backtick ∉ w.toList
  | illegal, w =>
    ∃ c, w.toList = [c] ∧ isBlank c = false ∧ c.isDigit = false ∧ isNameStart c = false ∧
      c ≠ '"' ∧ c ≠ Lexeme.backtick ∧ ∀ s : Symbol, c ∉ s.text.toList
  | eof, w => w = ""
  | int, _ | float, _ | string, _ => True

/-! #### Symbols -/

namespace Symbol

/-- A symbol that a character spells by itself is spelled by this character. -/
private theorem toList_text_of_ofChar? {c : Char} {s : Symbol} (h : ofChar? c = some s) :
    s.text.toList = [c] := by
  have hmarks : ∀ c ∈ marks, (ofChar? c).map (fun s => s.text.toList) = some [c] :=
    List.all_iff_forall_prop.mp (by decide +kernel)
  have hc := hmarks c (mem_marks_of_ofChar? h)
  rw [h] at hc
  exact Option.some.inj hc

private theorem toList_text_of_extend? {s longer : Symbol} {d : Char}
    (h : s.extend? d = some longer) : longer.text.toList = s.text.toList ++ [d] := by
  unfold extend? at h
  split at h <;> cases h <;> decide +kernel

/-- A symbol of two characters extends the symbol that its first character spells. -/
private theorem extend?_of_toList_text {c d : Char} {s longer : Symbol} (h : ofChar? c = some s)
    (hlonger : longer.text.toList = [c, d]) : s.extend? d = some longer := by
  cases longer <;> simp [text] at hlonger
  all_goals
    obtain ⟨rfl, rfl⟩ := hlonger
    obtain rfl := Option.some.inj h
    rfl

private theorem length_toList_text_le (s : Symbol) : s.text.toList.length ≤ 2 := by
  cases s <;> decide +kernel

/-- Every character of a symbol starts one. -/
private theorem isSome_ofChar?_of_mem_text (s : Symbol) :
    ∀ c ∈ s.text.toList, (ofChar? c).isSome = true := by
  have hall : s.text.toList.all (fun c => (ofChar? c).isSome) = true := by
    cases s <;> decide +kernel
  exact List.all_eq_true.mp hall

private theorem ofList_eq_text {s : Symbol} {w : List Char} (h : s.text.toList = w) :
    String.ofList w = s.text := by
  rw [← h, String.ofList_toList]

end Symbol

namespace Lexeme

variable (names : Namespaces)

/-- A symbol is spelled by its literal, be it the symbol of its first character or a longer one. -/
private theorem spells_symbol {c : Char} {s : Symbol} (rest : List Char)
    (h : Symbol.ofChar? c = some s) :
    (symbol s [] (c :: rest)).kind.Spells names
      (String.ofList (symbol s [] (c :: rest)).literal) := by
  have hc := Symbol.toList_text_of_ofChar? h
  rcases hext : headIs (fun d => (s.extend? d).isSome) rest with _ | _
  · rw [symbol_of_headIs s [] c hext]
    exact Symbol.ofList_eq_text hc
  · cases rest with
    | nil => cases hext
    | cons d rest =>
      obtain ⟨longer, hlonger⟩ := Option.isSome_iff_exists.mp hext
      have htext := Symbol.toList_text_of_extend? hlonger
      rw [hc] at htext
      simp only [symbol, hlonger]
      exact Symbol.ofList_eq_text htext

/-- **A symbol is as long as it can be**: with the character behind it, it spells no other
symbol. -/
theorem maximal_symbol {c : Char} {s : Symbol} (rest : List Char) (h : Symbol.ofChar? c = some s)
    {d : Char} {more : List Char} (hrest : (symbol s [] (c :: rest)).rest = d :: more)
    (longer : Symbol) : longer.text.toList ≠ (symbol s [] (c :: rest)).literal ++ [d] := by
  intro hlonger
  rcases hext : headIs (fun d => (s.extend? d).isSome) rest with _ | _
  · rw [symbol_of_headIs s [] c hext] at hrest hlonger
    obtain rfl : rest = d :: more := hrest
    have hextend := Symbol.extend?_of_toList_text h hlonger
    simp [headIs, hextend] at hext
  · -- a symbol of two characters cannot be extended
    cases rest with
    | nil => cases hext
    | cons e rest =>
      obtain ⟨two, htwo⟩ := Option.isSome_iff_exists.mp hext
      simp only [symbol, htwo] at hlonger
      have hlength := longer.length_toList_text_le
      rw [hlonger] at hlength
      simp at hlength

/-! #### Words -/

private theorem point_not_mem_suffix (cs : List Char) : '.' ∉ suffix cs := by
  fun_cases suffix cs <;> simp

/-- A name without a member holds no point, so a point in a name tells where the namespace ends. -/
private theorem point_not_mem_run (cs : List Char) : '.' ∉ run cs := by
  rw [run, List.mem_append, not_or]
  refine ⟨fun h => ?_, point_not_mem_suffix _⟩
  have hpoint : isNameContinue '.' = true := List.mem_takeWhile_imp h
  revert hpoint
  decide

end Lexeme

/-- No reserved word holds a point. -/
private theorem Keyword.point_not_mem_spelling (k : Keyword) : '.' ∉ k.spelling.toList := by
  cases k <;> decide +kernel

theorem Keyword.mem_all (k : Keyword) : k ∈ Keyword.all := by
  cases k <;> decide

/-- A word that is not reserved is no spelling of a reserved word, as all of these are looked up. -/
private theorem Kind.ne_spelling_of_ofWord {w : String} (h : ofWord w = ident) (k : Keyword) :
    w ≠ k.spelling := by
  rintro rfl
  unfold ofWord at h
  split at h
  · cases h
  · next hnone =>
    have hk := List.find?_eq_none.mp hnone k k.mem_all
    simp at hk

/-- A reserved word is read from its spelling. -/
private theorem Kind.eq_spelling_of_ofWord {w : String} {k : Keyword} (h : ofWord w = keyword k) :
    w = k.spelling := by
  unfold ofWord at h
  split at h
  · next found hfound =>
    cases h
    have hspelling := List.find?_some hfound
    exact (beq_iff_eq.mp hspelling).symm
  · cases h

namespace Lexeme

variable (names : Namespaces)

/-- A namespace with a member is spelled as a name with one point, with a namespace in front of it
and a name behind. Neither holds another point. -/
private theorem spells_word_of_joins {cs : List Char} (h : joins names [] cs = true) :
    (word names [] cs).kind.Spells names (String.ofList (word names [] cs).literal) := by
  obtain ⟨hnames, hmember⟩ := Bool.and_eq_true_iff.mp h
  obtain ⟨d, rest, hafter, hd⟩ := exists_of_startsMember hmember
  rw [word_of_joins h, hafter]
  simp only [Kind.Spells, List.nil_append, String.toList_ofList, List.drop_succ_cons,
    List.drop_zero]
  have hhead := point_not_mem_run cs
  have hrun := point_not_mem_run (d :: rest)
  refine ⟨fun k hk => ?_, ?_, fun before after happ => ?_⟩
  · -- reserved words have no point
    have hpoint := k.point_not_mem_spelling
    rw [← hk, String.toList_ofList] at hpoint
    simp at hpoint
  · rw [List.count_append, List.count_cons_self, List.count_eq_zero.mpr hhead,
      List.count_eq_zero.mpr hrun]
  · -- there is one point, so the two parts are the namespace and the member
    obtain ⟨rfl, -, rfl⟩ := (List.append_cons_inj_of_notMem hhead hrun).mp happ
    obtain ⟨t, ht⟩ := run_cons rest hd
    rw [ht]
    exact ⟨hnames, hd⟩

/-- A word without a member is a reserved word or a name without a point. A name that is spelled as
a reserved word is that word. -/
private theorem spells_word_of_not_joins {cs : List Char} (h : joins names [] cs = false) :
    (word names [] cs).kind.Spells names (String.ofList (word names [] cs).literal) := by
  have hrun := point_not_mem_run cs
  rw [word_of_not_joins h]
  simp only [List.nil_append]
  rcases hword : Keyword.ofSpelling? (String.ofList (run cs)) with _ | k
  · have hkind : Kind.ofWord (String.ofList (run cs)) = .ident := by simp [Kind.ofWord, hword]
    rw [hkind]
    refine ⟨Kind.ne_spelling_of_ofWord hkind, ?_, fun before after happ => ?_⟩
    · rw [String.toList_ofList, List.count_eq_zero.mpr hrun]
      exact Nat.zero_le 1
    · rw [String.toList_ofList] at happ
      rw [happ] at hrun
      simp at hrun
  · have hkind : Kind.ofWord (String.ofList (run cs)) = .keyword k := by simp [Kind.ofWord, hword]
    rw [hkind]
    exact ⟨Kind.eq_spelling_of_ofWord hkind, hkind⟩

/-- A word is spelled by its literal, joined or not. -/
private theorem spells_word (cs : List Char) :
    (word names [] cs).kind.Spells names (String.ofList (word names [] cs).literal) := by
  rcases h : joins names [] cs with _ | _
  · exact spells_word_of_not_joins names h
  · exact spells_word_of_joins names h

/-! #### Commands and illegal characters -/

/-- The literal of a command holds no backtick. -/
private theorem spells_command (cs : List Char) :
    (command cs).kind.Spells names (String.ofList (command cs).literal) := by
  have hinner : backtick ∉ (cs.drop 1).takeWhile (· != backtick) := by
    intro h
    have htick := List.mem_takeWhile_imp h
    simp at htick
  rw [kind_command, Kind.Spells, String.toList_ofList]
  unfold command
  split <;> exact hinner

/-- A command stands between backticks; the second is missing only at the end of the input, and
this is a flaw. -/
private theorem text_command (rest : List Char) :
    let x := command (backtick :: rest)
    x.text = backtick :: x.literal ++ [backtick] ∨
      x.text = backtick :: x.literal ∧ x.rest = [] ∧ Flaw.unterminatedCommand ∈ x.flaws := by
  intro x
  rcases hdrop : rest.dropWhile (· != backtick) with _ | ⟨c, more⟩
  · refine .inr ?_
    simp [x, command, hdrop]
  · refine .inl ?_
    have htick : (c != backtick) = false := by
      have hhead := headIs_dropWhile (· != backtick) rest
      rwa [hdrop] at hhead
    obtain rfl : c = backtick := by simpa using htick
    simp [x, command_of_dropWhile hdrop]

/-- An illegal character is one that starts nothing and is no blank. -/
private theorem spells_illegal {c : Char} (rest : List Char) (hstarts : starts c = false)
    (hblank : isBlank c = false) :
    (illegal c rest).kind.Spells names (String.ofList (illegal c rest).literal) := by
  simp only [starts, Bool.or_eq_false_iff, beq_eq_false_iff_ne] at hstarts
  obtain ⟨⟨⟨⟨hsymbol, hquote⟩, htick⟩, hdigit⟩, hname⟩ := hstarts
  refine ⟨c, String.toList_ofList, hblank, hdigit, hname, hquote, htick, fun s hs => ?_⟩
  have hsome := s.isSome_ofChar?_of_mem_text c hs
  rw [hsymbol] at hsome
  cases hsome

/-! ### Lexemes of every class -/

variable {c : Char} {rest : List Char}

/-- **The literal of a lexeme is a spelling of its kind**, if no gap starts at the lexeme. A slash
in front of a comment would be none. -/
theorem spells_scan (h : Trivia.Clear (c :: rest)) :
    (scan names c rest).kind.Spells names (String.ofList (scan names c rest).literal) := by
  have hscans := scans_scan names rest c
  generalize scan names c rest = x at hscans
  cases hscans with
  | symbol _ hs => exact spells_symbol names rest hs
  | quotation => trivial
  | command => exact spells_command names _
  | @number c _ hdigit =>
    rcases kind_number [] (c :: rest) with hkind | hkind <;> rw [hkind] <;> trivial
  | word => exact spells_word names _
  | illegal _ hstarts => exact spells_illegal names rest hstarts h.1

/-- No symbol of a source is followed by a character that would make it longer, since the scanner
would have taken it. -/
private theorem maximal_scan {s : Symbol} (hkind : (scan names c rest).kind = .symbol s) {d : Char}
    {more : List Char} (hrest : (scan names c rest).rest = d :: more) (longer : Symbol) :
    longer.text.toList ≠ (scan names c rest).literal ++ [d] := by
  have hmark : ∃ t, Symbol.ofChar? c = some t := by
    rcases ofChar?_of_kind_eq_symbol hkind with hs | ⟨t, -, ht, -⟩
    · exact ⟨s, hs⟩
    · exact ⟨t, ht⟩
  obtain ⟨t, ht⟩ := hmark
  rw [scan_of_ofChar? names rest ht] at hrest ⊢
  exact maximal_symbol rest ht hrest longer

/-- Commands begin with a backtick, and with nothing else: no other scanner returns their kind. -/
private theorem eq_backtick_of_kind (hkind : (scan names c rest).kind = .command) :
    c = backtick := by
  have hscans := scans_scan names rest c
  generalize scan names c rest = x at hkind hscans
  cases hscans with
  | @symbol c s _ hs =>
    rcases kind_symbol s [] (c :: rest) with hk | ⟨d, longer, -, hk⟩ <;> rw [hk] at hkind <;>
      cases hkind
  | quotation => cases hkind
  | command => rfl
  | @number c _ hdigit =>
    rcases kind_number [] (c :: rest) with hk | hk <;> rw [hk] at hkind <;> cases hkind
  | @word c _ hname =>
    have hword := kind_word names [] (c :: rest)
    rw [hkind] at hword
    cases hword
  | illegal => cases hkind

end Lexeme

/-! ### The tokens of a source -/

/-- **Where a token of a division comes from**: it is the end of the source, or a lexeme that was
scanned where no gap starts, and what the lexeme reports is reported. -/
theorem exists_of_mem_tokens_divide (names : Namespaces) (cs : List Char)
    {behind source : List Char} (h : behind ++ cs = source) :
    ∀ t ∈ (divide names cs).tokens (Position.after behind),
      t = Token.eof (Span.point (Position.after source)) ∨
        ∃ front c rest, front ++ c :: rest = source ∧ Trivia.Clear (c :: rest) ∧
          t = (Lexeme.scan names c rest).token (Position.after front) ∧
          (Lexeme.scan names c rest).diagnostics (Position.after front) ⊆
            (divide names cs).diagnostics (Position.after behind) := by
  fun_induction divide names cs generalizing behind with
  | case1 cs hrest =>
    have htext : (Trivia.scan cs).text = cs := by
      simpa [hrest] using Trivia.scan_append cs
    intro t ht
    obtain rfl := List.mem_singleton.mp ht
    rw [htext, Position.advance_after, h]
    exact .inl rfl
  | case2 cs c rest hrest ih =>
    set x := Lexeme.scan names c rest with hx
    set front := behind ++ (Trivia.scan cs).text with hfront
    have hsource : front ++ c :: rest = source := by
      rw [hfront, List.append_assoc, ← hrest, Trivia.scan_append, h]
    have hmore : front ++ x.text ++ x.rest = source := by
      rw [List.append_assoc, Lexeme.scan_append, hsource]
    simp only [Division.tokens, Division.diagnostics, Position.advance_after, ← hfront]
    intro t ht
    rcases List.mem_cons.mp ht with rfl | ht
    · refine .inr ⟨front, c, rest, hsource, ?_, rfl, fun d hd => ?_⟩
      · rw [← hrest]
        exact Trivia.clear_rest_scan cs
      · exact List.mem_append_left _ (List.mem_append_right _ hd)
    · rcases ih hmore t ht with heof | ⟨front', c', rest', happ, hclear, htoken, hreports⟩
      · exact .inl heof
      · exact .inr ⟨front', c', rest', happ, hclear, htoken,
          fun d hd => List.mem_append_right _ (hreports hd)⟩

/-- **Tokens are well formed.** The literal of each token is a spelling of its kind, and the text
that the token covers, unless it is a string, a command or the end of the input. No symbol is
followed by a character with which it would spell another one. A command covers its literal between
two backticks; the second is missing only at the end of the source, and then this is reported. -/
theorem tokenize_wellFormed (names : Namespaces) (source : String) :
    let cs := source.toList
    let reading := tokenize names source
    ∀ t ∈ reading.tokens,
      t.kind.Spells names t.literal ∧
        (t.kind ∉ [.string, .command, .eof] → t.span.snippet? cs = .ok t.literal.toList) ∧
        (∀ s, t.kind = .symbol s → ∀ d more, Text.dropBytes t.span.stop cs = some (d :: more) →
          ∀ longer : Symbol, longer.text.toList ≠ t.literal.toList ++ [d]) ∧
        (t.kind = .command →
          t.span.snippet? cs = .ok (Lexeme.backtick :: t.literal.toList ++ [Lexeme.backtick]) ∨
            t.span.snippet? cs = .ok (Lexeme.backtick :: t.literal.toList) ∧
              t.span.stop = Text.byteLength cs ∧
              ∃ d ∈ reading.diagnostics, d.code = some Code.unterminatedCommand ∧
                d.span = t.span) := by
  intro cs reading t ht
  obtain ⟨happ, -⟩ := Trivia.opens_prologue cs
  obtain ⟨htokens, hreports⟩ := tokenize_eq names source
  rw [htokens] at ht
  rcases exists_of_mem_tokens_divide names _ happ t ht with
    rfl | ⟨front, c, rest, hcs, hclear, rfl, hdiagnostics⟩
  · exact ⟨rfl, fun h => absurd (by simp [Token.eof]) h, nofun, nofun⟩
  · set x := Lexeme.scan names c rest with hx
    have hfound : x.Found [] (c :: rest) := Lexeme.found_scan names c rest
    have hsource : front ++ (x.text ++ x.rest) = cs := by rw [hfound.append, hcs]
    have hsnippet : (x.token (Position.after front)).span.snippet? cs = .ok x.text := by
      rw [← hsource]
      exact x.snippet?_token_after front x.rest
    have hstop := x.stop_token_after front
    have hliteral : (x.token (Position.after front)).literal.toList = x.literal :=
      String.toList_ofList
    rw [hliteral, hsnippet, hstop]
    refine ⟨Lexeme.spells_scan names hclear, fun hkind => ?_, fun s hs d more hmore => ?_,
      fun hkind => ?_⟩
    · have hkinds : x.kind ≠ .string ∧ x.kind ≠ .command := by
        constructor <;> intro h <;> exact hkind (by simp [Lexeme.token, h])
      rw [hfound.literal hkinds.1 hkinds.2, List.nil_append]
    · rw [← hsource, ← List.append_assoc, Text.dropBytes_append] at hmore
      exact Lexeme.maximal_scan names hs (Option.some.inj hmore)
    · obtain rfl := Lexeme.eq_backtick_of_kind names hkind
      rw [Lexeme.scan_backtick] at hx
      rcases Lexeme.text_command rest with htext | ⟨htext, hrest, hflaw⟩
      · rw [← hx] at htext
        exact .inl (by rw [htext])
      · rw [← hx] at htext hrest hflaw
        let p := Position.after front
        refine .inr ⟨by rw [htext], ?_,
          Flaw.unterminatedCommand.diagnostic (x.span p) p x.text, ?_, rfl, rfl⟩
        · rw [← hsource, hrest, List.append_nil]
        · rw [hreports]
          exact hdiagnostics (List.mem_map_of_mem hflaw)

/-- A name behind a namespace, whose exclamation mark belongs to the operator that follows, and a
command that is not closed. -/
theorem tokenize_wellFormed_open_command :
    let names := Namespaces.ofList ["a"]
    let reading := tokenize names "a.b!=`"
    let name : Token := ⟨.ident, "a.b", ⟨0, 3, 1, 1⟩⟩
    let command : Token := ⟨.command, "", ⟨5, 6, 1, 6⟩⟩
    name ∈ reading.tokens ∧ name.kind.Spells names name.literal ∧
      command ∈ reading.tokens ∧ command.kind.Spells names command.literal ∧
      ∃ d ∈ reading.diagnostics, d.code = some Code.unterminatedCommand ∧
        d.span = command.span := by
  intro names reading name command
  have hname : name ∈ reading.tokens := by decide +kernel
  have hcommand : command ∈ reading.tokens := by decide +kernel
  obtain ⟨hspells, -, -, hclosed⟩ := tokenize_wellFormed names "a.b!=`" command hcommand
  refine ⟨hname, (tokenize_wellFormed names "a.b!=`" name hname).1, hcommand, hspells, ?_⟩
  rcases hclosed rfl with htext | ⟨-, -, hreport⟩
  · exact absurd htext (by decide +kernel)
  · exact hreport

end Lexis
