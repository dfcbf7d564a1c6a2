import Lexis.Lexeme.Command
import Lexis.Lexeme.Number
import Lexis.Lexeme.Quotation
import Lexis.Lexeme.Symbol
import Lexis.Lexeme.Word

/-!
# The lexeme at the front of a text

The first character decides what is scanned; the classes of first characters are disjoint. A
character that starts nothing is a lexeme of its own, with a flaw. Every lexeme takes at least one
character (`scan_text_ne_nil`), so that scanning a text comes to an end.
-/

namespace Lexis.Lexeme

open Lexis.CharClass

/-- A character that starts no token. -/
def illegal (c : Char) (rest : List Char) : Lexeme :=
  ⟨.illegal, [c], [c], rest, [.unexpected c]⟩

/-- Scans the text `c :: rest`. -/
def scan (names : Namespaces) (c : Char) (rest : List Char) : Lexeme :=
  match Symbol.ofChar? c with
  | some s => symbol s [] (c :: rest)
  | none =>
    if c = '"' then quotation (c :: rest)
    else if c = backtick then command (c :: rest)
    else if c.isDigit then number [] (c :: rest)
    else if isNameStart c then word names [] (c :: rest)
    else illegal c rest

/-- A lexeme and what follows it are the text. -/
theorem scan_append (names : Namespaces) (c : Char) (rest : List Char) :
    (scan names c rest).text ++ (scan names c rest).rest = c :: rest := by
  unfold scan
  split
  · exact symbol_append _ _ _
  · split
    · exact quotation_append _
    · split
      · exact command_append _
      · split
        · exact number_append _ _
        · split
          · exact word_append _ _ _
          · rfl

/-! ### Progress -/

theorem symbol_text_ne_nil (s : Symbol) (pending : List Char) (c : Char) (rest : List Char) :
    (symbol s pending (c :: rest)).text ≠ [] := by
  cases rest with
  | nil => simp [symbol]
  | cons d rest => simp only [symbol]; split <;> simp

theorem decimal_text_ne_nil (pending : List Char) {c : Char} (rest : List Char)
    (h : c.isDigit = true) : (decimal pending (c :: rest)).text ≠ [] := by
  have htake : (c :: rest).takeWhile Char.isDigit ≠ [] := by simp [h]
  unfold decimal
  split
  · split
    · simp
    · exact htake
  · exact htake

theorem number_text_ne_nil (pending : List Char) {c : Char} (rest : List Char)
    (h : c.isDigit = true) : (number pending (c :: rest)).text ≠ [] := by
  unfold number
  split
  · split
    · simp [based]
    · next heq _ _ => rw [← heq]; exact decimal_text_ne_nil pending rest h
  · exact decimal_text_ne_nil pending rest h

theorem run_ne_nil {c : Char} (rest : List Char) (h : isNameStart c = true) :
    run (c :: rest) ≠ [] := by
  simp [run, isNameStart_imp_isNameContinue h]

theorem word_text_ne_nil (names : Namespaces) (pending : List Char) {c : Char} (rest : List Char)
    (h : isNameStart c = true) : (word names pending (c :: rest)).text ≠ [] := by
  have hrun := run_ne_nil rest h
  unfold word
  split
  · simp
  · exact hrun

/-- Every lexeme takes at least one character. -/
theorem scan_text_ne_nil (names : Namespaces) (c : Char) (rest : List Char) :
    (scan names c rest).text ≠ [] := by
  unfold scan
  split
  · exact symbol_text_ne_nil _ _ _ _
  · split
    · simp [quotation]
    · split
      · simp only [command]; split <;> simp
      · split
        · next h => exact number_text_ne_nil _ _ h
        · split
          · next h => exact word_text_ne_nil _ _ _ h
          · simp [illegal]

end Lexis.Lexeme
