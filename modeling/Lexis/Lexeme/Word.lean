import Lexis.Lexeme.Basic
import Lexis.Namespaces

/-!
# Words

A word is the longest run of characters that continue a name, and one `?` or `!` if it follows. An
exclamation mark in front of an equals sign is **not** taken: it belongs to the operator `!=`. A
word that names a namespace joins with a point and the word behind it, if a name starts there; a
joined name does not join again.
-/

namespace Lexis.Lexeme

open Lexis.CharClass

/-- Whether a name may end with the next character. -/
def suffix : List Char → List Char
  | '?' :: _ => ['?']
  | '!' :: '=' :: _ => []
  | '!' :: _ => ['!']
  | _ => []

/-- The run of a name at the front of a text, with its suffix. -/
def run (cs : List Char) : List Char :=
  cs.takeWhile isNameContinue ++ suffix (cs.dropWhile isNameContinue)

/-- What follows the run of a name. -/
def afterRun (cs : List Char) : List Char :=
  let rest := cs.dropWhile isNameContinue
  rest.drop (suffix rest).length

/-- A point in front of a character that starts a name. -/
def startsMember : List Char → Bool
  | '.' :: c :: _ => isNameStart c
  | _ => false

/-- The word at the front of a text names a namespace and a member follows it. -/
def joins (names : Namespaces) (pending cs : List Char) : Bool :=
  names.contains (String.ofList (pending ++ run cs)) && startsMember (afterRun cs)

/-- Scans a word. -/
def word (names : Namespaces) (pending cs : List Char) : Lexeme :=
  if joins names pending cs then
    let member := (afterRun cs).drop 1
    let text := run cs ++ '.' :: run member
    ⟨.ident, pending ++ text, text, afterRun member, []⟩
  else
    let whole := pending ++ run cs
    ⟨Kind.ofWord (String.ofList whole), whole, run cs, afterRun cs, []⟩

theorem word_of_joins {names : Namespaces} {pending cs : List Char}
    (h : joins names pending cs = true) :
    word names pending cs =
      ⟨.ident, pending ++ (run cs ++ '.' :: run ((afterRun cs).drop 1)),
        run cs ++ '.' :: run ((afterRun cs).drop 1), afterRun ((afterRun cs).drop 1), []⟩ := by
  simp [word, h]

theorem word_of_not_joins {names : Namespaces} {pending cs : List Char}
    (h : joins names pending cs = false) :
    word names pending cs = ⟨Kind.ofWord (String.ofList (pending ++ run cs)), pending ++ run cs,
      run cs, afterRun cs, []⟩ := by
  simp [word, h]

/-- A member is a point and a character that starts a name. -/
theorem exists_of_startsMember {cs : List Char} (h : startsMember cs = true) :
    ∃ c rest, cs = '.' :: c :: rest ∧ isNameStart c = true := by
  unfold startsMember at h
  split at h
  · next c rest => exact ⟨c, rest, rfl, h⟩
  · cases h

theorem suffix_append_drop (cs : List Char) : suffix cs ++ cs.drop (suffix cs).length = cs := by
  fun_cases suffix cs <;> simp

theorem run_append (cs : List Char) : run cs ++ afterRun cs = cs := by
  simp only [run, afterRun, List.append_assoc, suffix_append_drop]
  exact List.takeWhile_append_dropWhile

theorem afterRun_of_startsMember {cs : List Char} (h : startsMember (afterRun cs) = true) :
    afterRun cs = '.' :: (afterRun cs).drop 1 := by
  unfold startsMember at h
  split at h
  · next hr => rw [hr]; rfl
  · simp at h

theorem word_append (names : Namespaces) (pending cs : List Char) :
    (word names pending cs).text ++ (word names pending cs).rest = cs := by
  unfold word
  split
  · next h =>
    have hdot := afterRun_of_startsMember (Bool.and_eq_true_iff.mp h).2
    simp only [List.append_assoc, List.cons_append, run_append]
    rw [← hdot, run_append]
  · exact run_append cs

end Lexis.Lexeme
