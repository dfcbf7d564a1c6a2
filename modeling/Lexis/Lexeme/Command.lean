import Lexis.Lexeme.Basic

/-!
# Commands

A command is the text between two backticks. Nothing is escaped in it.
-/

namespace Lexis.Lexeme

/-- The character around a command. -/
def backtick : Char := '\x60'

/-- Scans a command whose opening mark is the next character, whatever it is. -/
def command (cs : List Char) : Lexeme :=
  let opening := cs.take 1
  let inner := (cs.drop 1).takeWhile (· != backtick)
  match (cs.drop 1).dropWhile (· != backtick) with
  | [] => ⟨.command, inner, opening ++ inner, [], [.unterminatedCommand]⟩
  | c :: rest => ⟨.command, inner, opening ++ inner ++ [c], rest, []⟩

theorem command_append (cs : List Char) : (command cs).text ++ (command cs).rest = cs := by
  have h := List.takeWhile_append_dropWhile (p := (· != backtick)) (l := cs.drop 1)
  unfold command
  split
  · next hd =>
    rw [hd, List.append_nil] at h
    simp only [h, List.append_nil, List.take_append_drop]
  · next c rest hd =>
    rw [hd] at h
    simp only [List.append_assoc, List.singleton_append, h, List.take_append_drop]

end Lexis.Lexeme
