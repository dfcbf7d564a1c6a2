import Lexis.Lexeme.Scan
import Lexis.Proofs.Trivia
import Mathlib.Data.Bool.AllAny

/-!
# The first character decides

The first character of a lexeme decides which scanner reads it. The classes of first characters are
disjoint, so the order in which they are tried does not matter: `scan_of_isDigit` and
`scan_of_isNameStart` hold without a word about the other classes. `Lexeme.Scans` lists all that a
scan can be, one case for each class.
-/

namespace Lexis

open Lexis.CharClass Lexis.Text

/-! ### Classes of characters -/

/-- The characters that spell a symbol on their own. -/
def Symbol.marks : List Char :=
  ['=', '+', '-', '!', '*', '/', '%', '<', '>', ',', ';', ':', '.', '(', ')', '\x7b', '\x7d', '[',
    ']']

/-- A mark is no part of a name or a number, no blank and no quotation mark. -/
theorem Symbol.class_of_mem_marks : ∀ c ∈ Symbol.marks,
    isNameContinue c = false ∧ c.isDigit = false ∧ isBlank c = false ∧ c ≠ '"' ∧
      c ≠ Lexeme.backtick :=
  List.all_iff_forall_prop.mp (by decide)

/-- The marks are all the characters that spell a symbol by themselves. -/
theorem Symbol.mem_marks_of_ofChar? {c : Char} {s : Symbol} (h : Symbol.ofChar? c = some s) :
    c ∈ Symbol.marks := by
  by_contra hc
  simp only [Symbol.marks, List.mem_cons, List.not_mem_nil, or_false, not_or] at hc
  simp [Symbol.ofChar?, hc] at h

private theorem Symbol.ofChar?_eq_none {c : Char} (h : c ∉ Symbol.marks) :
    Symbol.ofChar? c = none := by
  rcases hs : Symbol.ofChar? c with _ | s
  · rfl
  · exact absurd (Symbol.mem_marks_of_ofChar? hs) h

theorem isBlank_iff {c : Char} :
    isBlank c = true ↔ c = ' ' ∨ c = '\t' ∨ c = '\r' ∨ c = '\n' := by
  simp [isBlank, or_assoc]

theorem class_of_isBlank {c : Char} (h : isBlank c = true) :
    isNameContinue c = false ∧ c.isDigit = false ∧ c ∉ Symbol.marks ∧ isNameSuffix c = false := by
  rcases isBlank_iff.mp h with rfl | rfl | rfl | rfl <;> decide

/-- A digit belongs to nothing that is looked for before numbers are: it spells no symbol, opens
neither a string nor a command, and is no blank. -/
private theorem class_of_isDigit {c : Char} (h : c.isDigit = true) :
    c ∉ Symbol.marks ∧ c ≠ '"' ∧ c ≠ Lexeme.backtick ∧ isBlank c = false := by
  refine ⟨fun hc => ?_, ?_, ?_, ?_⟩
  · simp [(Symbol.class_of_mem_marks c hc).2.1] at h
  · rintro rfl
    simp at h
  · rintro rfl
    revert h
    decide
  · by_contra hblank
    simp [(class_of_isBlank (by simpa using hblank)).2.1] at h

/-- No ASCII digit starts a name, so numbers and names are told apart by their first characters:
within ASCII only letters and the underscore start one. -/
private theorem not_isDigit_of_isNameStart {c : Char} (h : isNameStart c = true) :
    c.isDigit = false := by
  by_contra hdigit
  have hhigh : c.toNat ≤ 57 := (Char.isDigit_iff_toNat.mp (by simpa using hdigit)).2
  have hascii : c.toNat < asciiEnd := by
    unfold asciiEnd
    omega
  simp only [isNameStart, isAlphabetic, if_pos hascii, Bool.or_eq_true, beq_iff_eq] at h
  have hletter : c.isAlpha = (c.isUpper || c.isLower) := rfl
  rw [hletter, Bool.or_eq_true] at h
  rcases h with rfl | hupper | hlower
  · revert hhigh
    decide
  · have hle : 65 ≤ c.toNat := (of_decide_eq_true hupper).1
    omega
  · have hle : 97 ≤ c.toNat := of_decide_eq_true (Bool.and_eq_true_iff.mp hlower).1
    omega

/-- A character that starts a name belongs to nothing that is looked for before names are. None of
these is a character that a name goes on with. -/
theorem class_of_isNameStart {c : Char} (h : isNameStart c = true) :
    c ∉ Symbol.marks ∧ c ≠ '"' ∧ c ≠ Lexeme.backtick ∧ c.isDigit = false ∧ isBlank c = false := by
  have hcont := isNameStart_imp_isNameContinue h
  refine ⟨fun hc => ?_, ?_, ?_, not_isDigit_of_isNameStart h, ?_⟩
  · simp [(Symbol.class_of_mem_marks c hc).1] at hcont
  · rintro rfl
    revert h
    decide
  · rintro rfl
    revert h
    decide
  · by_contra hblank
    simp [(class_of_isBlank (by simpa using hblank)).1] at hcont

/-- No gap starts at a character that is neither a blank nor a slash. -/
theorem Trivia.clear_cons {c : Char} (cs : List Char) (hblank : isBlank c = false)
    (hslash : c ≠ '/') : Trivia.Clear (c :: cs) :=
  ⟨hblank, fun h => absurd h hslash⟩

/-- No gap starts at a name. -/
theorem Trivia.clear_of_isNameStart {c : Char} (cs : List Char) (h : isNameStart c = true) :
    Trivia.Clear (c :: cs) := by
  obtain ⟨hmarks, -, -, -, hblank⟩ := class_of_isNameStart h
  refine Trivia.clear_cons cs hblank ?_
  rintro rfl
  exact hmarks (by decide)

/-! ### Scanners by first character -/

/-- A name or a reserved word. -/
def Kind.isWord : Kind → Bool
  | ident | keyword _ => true
  | _ => false

theorem Kind.isWord_ofWord (w : String) : (Kind.ofWord w).isWord = true := by
  unfold Kind.ofWord
  split <;> rfl

namespace Lexeme

variable (names : Namespaces) {c : Char} (rest : List Char)

/-- Where a character spells a symbol, a symbol is scanned, though a longer one may come of it. -/
theorem scan_of_ofChar? {s : Symbol} (h : Symbol.ofChar? c = some s) :
    scan names c rest = symbol s [] (c :: rest) := by
  simp [scan, h]

theorem scan_quote : scan names '"' rest = quotation ('"' :: rest) := by
  simp [scan, Symbol.ofChar?]

theorem scan_backtick : scan names backtick rest = command (backtick :: rest) := by
  simp [scan, Symbol.ofChar?, backtick]

/-- A digit begins a number, since it begins nothing that is looked for before numbers are. -/
theorem scan_of_isDigit (h : c.isDigit = true) : scan names c rest = number [] (c :: rest) := by
  obtain ⟨hmarks, hquote, htick, -⟩ := class_of_isDigit h
  simp [scan, Symbol.ofChar?_eq_none hmarks, hquote, htick, h]

/-- A character that starts a name begins a word, since it begins nothing else. -/
theorem scan_of_isNameStart (h : isNameStart c = true) :
    scan names c rest = word names [] (c :: rest) := by
  obtain ⟨hmarks, hquote, htick, hdigit, -⟩ := class_of_isNameStart h
  simp [scan, Symbol.ofChar?_eq_none hmarks, hquote, htick, hdigit, h]

/-- The character starts a token. -/
def starts (c : Char) : Bool :=
  (Symbol.ofChar? c).isSome || c == '"' || c == backtick || c.isDigit || isNameStart c

/-- A character that starts nothing is scanned by itself. -/
theorem scan_of_not_starts (h : starts c = false) : scan names c rest = illegal c rest := by
  simp only [starts, Bool.or_eq_false_iff, Option.isSome_eq_false_iff, Option.isNone_iff_eq_none,
    beq_eq_false_iff_ne] at h
  obtain ⟨⟨⟨⟨hsymbol, hquote⟩, htick⟩, hdigit⟩, hname⟩ := h
  simp [scan, hsymbol, hquote, htick, hdigit, hname]

/-- **All that a scan can be**, by the class of the first character. -/
inductive Scans : Char → List Char → Lexeme → Prop
  | symbol {c : Char} {s : Symbol} (rest : List Char) :
      Symbol.ofChar? c = some s → Scans c rest (symbol s [] (c :: rest))
  | quotation (rest : List Char) : Scans '"' rest (quotation ('"' :: rest))
  | command (rest : List Char) : Scans backtick rest (command (backtick :: rest))
  | number {c : Char} (rest : List Char) :
      c.isDigit = true → Scans c rest (number [] (c :: rest))
  | word {c : Char} (rest : List Char) :
      isNameStart c = true → Scans c rest (word names [] (c :: rest))
  | illegal {c : Char} (rest : List Char) : starts c = false → Scans c rest (illegal c rest)

/-- **There is one scanner for each first character.** Every scan is by exactly one of them, so a
claim about lexemes is settled scanner by scanner. -/
theorem scans_scan (c : Char) : Scans names c rest (scan names c rest) := by
  by_cases hstarts : starts c = true
  · simp only [starts, Bool.or_eq_true, Option.isSome_iff_exists, beq_iff_eq] at hstarts
    rcases hstarts with (((⟨s, hs⟩ | rfl) | rfl) | hdigit) | hname
    · exact scan_of_ofChar? names rest hs ▸ .symbol rest hs
    · exact scan_quote names rest ▸ .quotation rest
    · exact scan_backtick names rest ▸ .command rest
    · exact scan_of_isDigit names rest hdigit ▸ .number rest hdigit
    · exact scan_of_isNameStart names rest hname ▸ .word rest hname
  · have hnot : starts c = false := by simpa using hstarts
    exact scan_of_not_starts names rest hnot ▸ .illegal rest hnot

/-! ### Kinds -/

/-- A symbol scan gives the symbol of the first character, or one that extends it by one character
more. -/
theorem kind_symbol (s : Symbol) (pending cs : List Char) :
    (symbol s pending cs).kind = .symbol s ∨
      ∃ d longer, s.extend? d = some longer ∧ (symbol s pending cs).kind = .symbol longer := by
  fun_cases symbol s pending cs with
  | case1 => exact .inl rfl
  | case2 c => exact .inl rfl
  | case3 c d rest longer h => exact .inr ⟨d, longer, h, rfl⟩
  | case4 c d rest h => exact .inl rfl

theorem kind_command (cs : List Char) : (command cs).kind = .command := by
  unfold command
  split <;> rfl

/-- A decimal number is an integer or has a fraction. -/
private theorem kind_decimal (pending cs : List Char) :
    (decimal pending cs).kind = .int ∨ (decimal pending cs).kind = .float := by
  unfold decimal
  split
  · split
    · exact .inr rfl
    · exact .inl rfl
  · exact .inl rfl

/-- Numbers have one of two kinds; in another base they are integers. -/
theorem kind_number (pending cs : List Char) :
    (number pending cs).kind = .int ∨ (number pending cs).kind = .float := by
  unfold number
  split
  · split
    · exact .inl rfl
    · exact kind_decimal _ _
  · exact kind_decimal _ _

theorem kind_word (pending cs : List Char) : (word names pending cs).kind.isWord = true := by
  unfold word
  split
  · rfl
  · exact Kind.isWord_ofWord _

/-- No lexeme is the end of the input, whichever scanner finds it. So the end token stands for
itself in a stream. -/
theorem kind_scan_ne_eof (c : Char) : (scan names c rest).kind ≠ .eof := by
  have hscans := scans_scan names rest c
  generalize scan names c rest = x at hscans
  cases hscans with
  | @symbol c s _ hs =>
    rcases kind_symbol s [] (c :: rest) with h | ⟨d, longer, -, h⟩ <;> rw [h] <;> simp
  | quotation => simp [quotation]
  | command => simp [kind_command]
  | @number c _ hdigit =>
    rcases kind_number [] (c :: rest) with h | h <;> rw [h] <;> simp
  | @word c _ hname =>
    intro h
    have hword := kind_word names [] (c :: rest)
    rw [h] at hword
    cases hword
  | illegal => simp [illegal]

/-- A word begins with a character that starts a name: no other scanner gives the kind of a word. So
kinds tell where words begin. -/
theorem isNameStart_of_isWord {names : Namespaces} {c : Char} {rest : List Char}
    (h : (scan names c rest).kind.isWord = true) : isNameStart c = true := by
  have hscans := scans_scan names rest c
  generalize scan names c rest = x at h hscans
  cases hscans with
  | @symbol c s _ hs =>
    rcases kind_symbol s [] (c :: rest) with hk | ⟨d, longer, -, hk⟩ <;> rw [hk] at h <;> cases h
  | quotation => cases h
  | command => rw [kind_command] at h; cases h
  | @number c _ hdigit =>
    rcases kind_number [] (c :: rest) with hk | hk <;> rw [hk] at h <;> cases h
  | word _ hname => exact hname
  | illegal => cases h

/-- A symbol begins with a character that spells one, either this symbol or the one that it
extends. -/
theorem ofChar?_of_kind_eq_symbol {names : Namespaces} {c : Char} {rest : List Char} {s : Symbol}
    (h : (scan names c rest).kind = .symbol s) :
    Symbol.ofChar? c = some s ∨ ∃ t d, Symbol.ofChar? c = some t ∧ t.extend? d = some s := by
  have hscans := scans_scan names rest c
  generalize scan names c rest = x at h hscans
  cases hscans with
  | @symbol c t _ ht =>
    rcases kind_symbol t [] (c :: rest) with hk | ⟨d, longer, hextend, hk⟩
    · rw [hk] at h
      cases h
      exact .inl ht
    · rw [hk] at h
      cases h
      exact .inr ⟨t, d, ht, hextend⟩
  | quotation => cases h
  | command => rw [kind_command] at h; cases h
  | @number c _ hdigit =>
    rcases kind_number [] (c :: rest) with hk | hk <;> rw [hk] at h <;> cases h
  | @word c _ hname =>
    have hword := kind_word names [] (c :: rest)
    rw [h] at hword
    cases hword
  | illegal => cases h

end Lexeme

end Lexis
