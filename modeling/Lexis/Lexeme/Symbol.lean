import Lexis.Lexeme.Basic

/-!
# Symbols

A symbol is the next character, and the one after it if the two spell a longer symbol.
-/

namespace Lexis.Lexeme

/-- Scans `s` or a symbol that extends it. The next character is taken to spell `s`, whatever it
is. -/
def symbol (s : Symbol) (pending : List Char) : List Char → Lexeme
  | [] => ⟨.symbol s, pending, [], [], []⟩
  | [c] => ⟨.symbol s, pending ++ [c], [c], [], []⟩
  | c :: d :: rest =>
    match s.extend? d with
    | some longer => ⟨.symbol longer, pending ++ [c, d], [c, d], rest, []⟩
    | none => ⟨.symbol s, pending ++ [c], [c], d :: rest, []⟩

theorem symbol_append (s : Symbol) (pending cs : List Char) :
    (symbol s pending cs).text ++ (symbol s pending cs).rest = cs := by
  fun_cases symbol s pending cs <;> simp

end Lexis.Lexeme
