/-!
# Lines of a text

Lines are cut at line feeds only; a line feed at the very end of a text starts **no** further
line, and the empty text has no line. Carriage returns stay in the line until `trimReturns`
takes them off its end.
-/

namespace Lexis.Text

/-- The lines of a text, without their line feeds. -/
def lines : List Char → List (List Char)
  | [] => []
  | c :: text =>
    if c = '\n' then [] :: lines text
    else match lines text with
      | [] => [[c]]
      | line :: more => (c :: line) :: more

/-- A line without the carriage returns at its end. -/
def trimReturns (line : List Char) : List Char :=
  (line.reverse.dropWhile (· == '\r')).reverse

@[simp]
theorem lines_nil : lines [] = [] := rfl

@[simp]
theorem lines_newline (text : List Char) : lines ('\n' :: text) = [] :: lines text := rfl

end Lexis.Text
