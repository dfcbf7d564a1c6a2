import Lexis.Trivia
import Mathlib.Data.List.TakeWhile

/-!
# What trivia is

`Trivia.Fills text rest` is the grammar of a gap: blanks, line comments and block comments, one
behind the other. It is a relation between the gap and **the text behind it**, because two of its
rules look there: a line comment runs up to a line feed or the end of the text, and a block comment
without `*/` reaches the end of the text. `Trivia.Opens` is the grammar of the prologue in the same
form.

The scanners find such texts (`fills_scan`, `opens_prologue`), and at what they leave no gap starts
(`clear_rest_scan`).
-/

namespace Lexis.Trivia

open Lexis.CharClass

/-! ### Block comments -/

/-- The text holds the mark that closes a block comment. -/
def HasClosing (cs : List Char) : Prop :=
  ['*', '/'] <:+: cs

theorem not_hasClosing_nil : ¬ HasClosing [] := by
  simp [HasClosing]

/-- A closing mark is at the front of a text or in what follows the first character, so it can be
looked for character by character. -/
theorem hasClosing_cons {c : Char} {cs : List Char} :
    HasClosing (c :: cs) ↔ (c = '*' ∧ ∃ rest, cs = '/' :: rest) ∨ HasClosing cs := by
  simp only [HasClosing, List.infix_cons_iff]
  refine or_congr ⟨?_, ?_⟩ Iff.rfl
  · rintro ⟨t, ht⟩
    obtain ⟨rfl, rfl⟩ := List.cons.inj ht
    exact ⟨rfl, t, rfl⟩
  · rintro ⟨rfl, rest, rfl⟩
    exact ⟨rest, rfl⟩

/-- A closed body ends with the **first** `*/`: what stands in front of the mark holds none. -/
theorem not_hasClosing_of_closing? {cs body rest : List Char}
    (h : closing? cs = some (body, rest)) :
    ∃ inner, body = inner ++ ['*', '/'] ∧ ¬ HasClosing inner := by
  fun_induction closing? cs generalizing body with
  | case1 => simp at h
  | case2 =>
    obtain ⟨rfl, rfl⟩ := Prod.mk.inj (Option.some.inj h)
    exact ⟨[], rfl, not_hasClosing_nil⟩
  | case3 c cs hopen ih =>
    obtain ⟨⟨body', rest'⟩, hfound, hp⟩ := Option.map_eq_some_iff.mp h
    obtain ⟨rfl, rfl⟩ := Prod.mk.inj hp
    obtain ⟨inner, rfl, hinner⟩ := ih hfound
    refine ⟨c :: inner, rfl, fun hclosing => ?_⟩
    rcases hasClosing_cons.mp hclosing with ⟨rfl, more, rfl⟩ | hclosing
    · -- then the mark would stand at the front already
      exact hopen _ rfl (closing?_append hfound).symm
    · exact hinner hclosing

/-- Without a closed body there is no `*/` at all. -/
theorem not_hasClosing_of_closing?_eq_none {cs : List Char} (h : closing? cs = none) :
    ¬ HasClosing cs := by
  fun_induction closing? cs with
  | case1 => exact not_hasClosing_nil
  | case2 => simp at h
  | case3 c cs hopen ih =>
    intro hclosing
    rcases hasClosing_cons.mp hclosing with ⟨rfl, rest, rfl⟩ | hclosing
    · exact hopen _ rfl rfl
    · exact ih (Option.map_eq_none_iff.mp h) hclosing

/-! ### Gaps -/

/-- `text` is a sequence of blanks and comments in front of `rest`. -/
inductive Fills : List Char → List Char → Prop
  /-- No blank and no comment. -/
  | nil (rest : List Char) : Fills [] rest
  /-- A space, a tab, a carriage return or a line feed. -/
  | blank {c : Char} {text rest : List Char} :
      isBlank c = true → Fills text rest → Fills (c :: text) rest
  /-- A line comment: it runs up to a line feed or the end of the text. -/
  | line {body text rest : List Char} :
      '\n' ∉ body → (∀ c ∈ (text ++ rest).head?, c = '\n') → Fills text rest →
      Fills ('/' :: '/' :: (body ++ text)) rest
  /-- A block comment: it ends with its first `*/`. -/
  | block {body text rest : List Char} :
      ¬ HasClosing body → Fills text rest →
      Fills ('/' :: '*' :: (body ++ '*' :: '/' :: text)) rest
  /-- A block comment that is not closed: nothing stands behind it. -/
  | unclosed {body : List Char} : ¬ HasClosing body → Fills ('/' :: '*' :: body) []

/-- Behind a run of other characters stands a line feed or nothing, so a line comment ends where its
line does. -/
theorem head?_dropWhile_ne_newline (cs : List Char) :
    ∀ c ∈ (cs.dropWhile (· != '\n')).head?, c = '\n' := by
  intro c hc
  have := List.head?_dropWhile_not (· != '\n') cs
  rw [Option.mem_def.mp hc] at this
  simpa using this

/-- A line comment does not reach beyond its line. -/
theorem newline_not_mem_takeWhile (cs : List Char) : '\n' ∉ cs.takeWhile (· != '\n') := by
  intro h
  have := List.mem_takeWhile_imp h
  simp at this

theorem bne_newline {cs : List Char} (h : '\n' ∉ cs) : ∀ c ∈ cs, (c != '\n') = true := by
  intro c hc
  simp only [bne_iff_ne]
  rintro rfl
  exact h hc

/-- **A gap is filled with trivia.** By induction along the gap: each turn of the scanner is a case
of the grammar. -/
theorem fills_scan (cs : List Char) : Fills (scan cs).text (scan cs).rest := by
  fun_induction scan cs with
  | case1 => exact .nil _
  | case2 cs ih =>
    refine .line (newline_not_mem_takeWhile cs) ?_ ih
    rw [Gap.rest_prepend, scan_append]
    exact head?_dropWhile_ne_newline cs
  | case3 cs body rest h ih =>
    obtain ⟨inner, rfl, hinner⟩ := not_hasClosing_of_closing? h
    simpa using Fills.block hinner ih
  | case4 cs h => exact .unclosed (not_hasClosing_of_closing?_eq_none h)
  | case5 c cs _ _ hc ih => exact .blank hc ih
  | case6 => exact .nil _

/-! ### Where no gap starts -/

/-- No gap starts at the text: it is empty, or its first character is neither a blank nor the
opener of a comment. -/
def Clear : List Char → Prop
  | [] => True
  | c :: cs => isBlank c = false ∧ (c = '/' → ∀ d ∈ cs.head?, d ≠ '/' ∧ d ≠ '*')

private theorem not_isBlank_slash : isBlank '/' = false := by decide

/-- A blank is passed by itself: it is in front of the gap that is found behind it. -/
theorem scan_blank_cons {c : Char} (cs : List Char) (hc : isBlank c = true) :
    scan (c :: cs) = (scan cs).prepend [c] := by
  have hslash : c ≠ '/' := by
    rintro rfl
    simp [not_isBlank_slash] at hc
  rw [scan]
  · simp [hc]
  · exact fun _ h => absurd h hslash
  · exact fun _ h => absurd h hslash

/-- Where no gap starts, the gap is empty and nothing is left open. This closes every induction
along a gap. -/
theorem scan_of_clear {cs : List Char} (h : Clear cs) : scan cs = ⟨[], cs, none⟩ := by
  cases cs with
  | nil => rw [scan]
  | cons c cs =>
    obtain ⟨hblank, hslash⟩ := h
    rw [scan]
    · simp [hblank]
    · rintro ds hc rfl
      exact (hslash hc '/' rfl).1 rfl
    · rintro ds hc rfl
      exact (hslash hc '*' rfl).2 rfl

/-- **A gap is as long as it can be.** The scanner stops only where none of its cases applies, and
then no trivia begin. -/
theorem clear_rest_scan (cs : List Char) : Clear (scan cs).rest := by
  fun_induction scan cs with
  | case1 => trivial
  | case2 cs ih => exact ih
  | case3 cs body rest h ih => exact ih
  | case4 => trivial
  | case5 c cs _ _ _ ih => exact ih
  | case6 c cs hline hblock hc =>
    refine ⟨by simpa using hc, fun hslash d hd => ⟨?_, ?_⟩⟩
    · rintro rfl
      obtain ⟨ds, rfl⟩ := List.head?_eq_some_iff.mp hd
      exact hline ds hslash rfl
    · rintro rfl
      obtain ⟨ds, rfl⟩ := List.head?_eq_some_iff.mp hd
      exact hblock ds hslash rfl

/-! ### Gaps in front of other texts -/

/-- A comment is closed by its first `*/`, whatever follows. So more text behind a comment never
changes where it ends. -/
theorem closing?_of_not_hasClosing {inner : List Char} (h : ¬ HasClosing inner) (z : List Char) :
    closing? (inner ++ '*' :: '/' :: z) = some (inner ++ ['*', '/'], z) := by
  induction inner with
  | nil => rfl
  | cons c inner ih =>
    rw [hasClosing_cons, not_or] at h
    obtain ⟨hfront, hinner⟩ := h
    rw [List.cons_append, closing?, ih hinner]
    · rfl
    · rintro t rfl ht
      -- the mark would lie inside the comment, or its star would be a slash:
      cases inner with
      | nil => simp at ht
      | cons d inner =>
        obtain ⟨rfl, -⟩ := List.cons.inj ht
        exact hfront ⟨rfl, inner, rfl⟩

/-- A closed body is closed by its own mark in front of any other text. -/
private theorem closing?_body_append {cs body rest : List Char}
    (h : closing? cs = some (body, rest))
    (z : List Char) : closing? (body ++ z) = some (body, z) := by
  obtain ⟨inner, rfl, hinner⟩ := not_hasClosing_of_closing? h
  rw [List.append_assoc]
  exact closing?_of_not_hasClosing hinner z

theorem scan_line_comment (cs : List Char) :
    scan ('/' :: '/' :: cs) =
      (scan (cs.dropWhile (· != '\n'))).prepend ('/' :: '/' :: cs.takeWhile (· != '\n')) := by
  rw [scan]

/-- A block comment with its closing mark is passed, and the gap goes on behind it. -/
theorem scan_block_comment {cs body rest : List Char} (h : closing? cs = some (body, rest)) :
    scan ('/' :: '*' :: cs) = (scan rest).prepend ('/' :: '*' :: body) := by
  rw [scan]
  split
  · next body' rest' h' =>
    rw [h] at h'
    obtain ⟨rfl, rfl⟩ := Prod.mk.inj (Option.some.inj h')
    rfl
  · next h' => rw [h] at h'; cases h'

/-- A line ends in front of a line feed, whatever stands behind it. -/
private theorem takeWhile_append_newline (cs b : List Char) :
    (cs ++ '\n' :: b).takeWhile (· != '\n') = cs.takeWhile (· != '\n') := by
  induction cs with
  | nil => rfl
  | cons c cs ih => rw [List.cons_append, List.takeWhile_cons, List.takeWhile_cons, ih]

private theorem dropWhile_append_newline (cs b : List Char) :
    (cs ++ '\n' :: b).dropWhile (· != '\n') = cs.dropWhile (· != '\n') ++ '\n' :: b := by
  induction cs with
  | nil => rfl
  | cons c cs ih =>
    rw [List.cons_append, List.dropWhile_cons, List.dropWhile_cons, ih]
    split <;> rfl

/-- **A gap in front of a lexeme is found again** in front of any text at which no gap starts. Its
line comments end at line feeds that belong to it, and its block comments are closed. -/
theorem scan_text_append {cs y : List Char} (hrest : (scan cs).rest ≠ []) (hy : Clear y) :
    scan ((scan cs).text ++ y) = ⟨(scan cs).text, y, none⟩ := by
  fun_induction scan cs with
  | case1 => exact absurd rfl hrest
  | case2 cs ih =>
    have hfeed : (cs.dropWhile (· != '\n')) ≠ [] := by
      intro hnil
      rw [Gap.rest_prepend, hnil, scan] at hrest
      exact hrest rfl
    obtain ⟨c, ds, hds⟩ := List.exists_cons_of_ne_nil hfeed
    -- the comment ends at a line feed, which belongs to the gap:
    obtain rfl : c = '\n' := head?_dropWhile_ne_newline cs c (by rw [hds]; rfl)
    have hline : ∀ d ∈ cs.takeWhile (· != '\n'), (d != '\n') = true :=
      fun _ => List.mem_takeWhile_imp
    have htext : (scan ('\n' :: ds)).text = '\n' :: (scan ds).text := by
      rw [scan_blank_cons ds (by decide)]
      rfl
    have ih := ih hrest
    rw [hds, htext] at ih
    rw [Gap.text_prepend, hds, htext, List.append_assoc, List.cons_append, List.cons_append,
      scan_line_comment, List.takeWhile_append_of_pos hline, List.dropWhile_append_of_pos hline]
    change (scan ('\n' :: (scan ds).text ++ y)).prepend (_ :: _ :: (_ ++ [])) = _
    rw [ih, List.append_nil]
    rfl
  | case3 cs body rest h ih =>
    have ih := ih hrest
    rw [Gap.text_prepend, List.append_assoc, List.cons_append, List.cons_append,
      scan_block_comment (closing?_body_append h _), ih]
    rfl
  | case4 => exact absurd rfl hrest
  | case5 c cs _ _ hc ih =>
    have ih := ih hrest
    rw [Gap.text_prepend, List.append_assoc, List.singleton_append, scan_blank_cons _ hc, ih]
    rfl
  | case6 => exact scan_of_clear hy

/-- In front of a lexeme every comment is closed, for a comment that is left open takes all that
follows. -/
theorem unclosed_of_rest_eq_cons {cs rest : List Char} {c : Char} (h : (scan cs).rest = c :: rest) :
    (scan cs).unclosed = none := by
  have hne : (scan cs).rest ≠ [] := by
    rw [h]
    exact List.cons_ne_nil c rest
  have hagain := scan_text_append hne (clear_rest_scan cs)
  rw [scan_append] at hagain
  rw [hagain]

/-- **A line feed goes on with the last gap of a text**: what follows is read as if it stood by
itself. -/
theorem scan_append_newline {cs : List Char} (b : List Char) (hrest : (scan cs).rest = [])
    (hclosed : (scan cs).unclosed = none) :
    scan (cs ++ '\n' :: b) = (scan b).prepend (cs ++ ['\n']) := by
  fun_induction scan cs with
  | case1 => exact scan_blank_cons b (by decide)
  | case2 cs ih =>
    have ih := ih hrest (Option.map_eq_none_iff.mp hclosed)
    rw [List.cons_append, List.cons_append, scan_line_comment, takeWhile_append_newline,
      dropWhile_append_newline, ih, Gap.prepend_prepend]
    simp only [List.cons_append, ← List.append_assoc, List.takeWhile_append_dropWhile]
  | case3 cs body rest h ih =>
    have ih := ih hrest (Option.map_eq_none_iff.mp hclosed)
    have hcs := closing?_append h
    have hclosing : closing? (cs ++ '\n' :: b) = some (body, rest ++ '\n' :: b) := by
      rw [← hcs, List.append_assoc]
      exact closing?_body_append h _
    rw [List.cons_append, List.cons_append, scan_block_comment hclosing, ih, Gap.prepend_prepend,
      ← hcs]
    simp
  | case4 => cases hclosed
  | case5 c cs _ _ hc ih =>
    have ih := ih hrest (Option.map_eq_none_iff.mp hclosed)
    rw [List.cons_append, scan_blank_cons _ hc, ih, Gap.prepend_prepend]
    rfl
  | case6 => cases hrest

/-! ### The prologue -/

/-- `line` is nothing, or a `#!` line with its line feed, which is missing only at the end of the
text. -/
inductive Shebang : List Char → List Char → Prop
  | none (rest : List Char) : Shebang [] rest
  | fed {body rest : List Char} :
      '\n' ∉ body → Shebang ('#' :: '!' :: (body ++ ['\n'])) rest
  | last {body : List Char} : '\n' ∉ body → Shebang ('#' :: '!' :: body) []

/-- `text` is the prologue in front of `rest`: a byte-order mark or none, then a `#!` line or
none. -/
inductive Opens : List Char → List Char → Prop
  | unmarked {line rest : List Char} : Shebang line rest → Opens line rest
  | marked {line rest : List Char} : Shebang line rest → Opens (byteOrderMark :: line) rest

/-- The text behind the prologue. -/
def content (cs : List Char) : List Char :=
  cs.drop (prologue cs).text.length

/-- The `#!` line at the front of a text with its line feed, or nothing. -/
def shebangText (cs : List Char) : List Char :=
  match shebang? cs with
  | some (line, feed) => line ++ feed
  | none => []

/-- A `#!` line is a front part of the text, and as its grammar says: with a line feed, or up to the
end of the text. -/
private theorem shebangText_append (cs : List Char) :
    ∃ rest, shebangText cs ++ rest = cs ∧ Shebang (shebangText cs) rest := by
  unfold shebangText shebang?
  split
  · next h =>
    split at h
    · next cs =>
      obtain ⟨rfl, rfl⟩ := Prod.mk.inj (Option.some.inj h)
      have happ := List.takeWhile_append_dropWhile (p := (· != '\n')) (l := cs)
      have hbody := newline_not_mem_takeWhile cs
      have hhead := head?_dropWhile_ne_newline cs
      rcases hdrop : cs.dropWhile (· != '\n') with _ | ⟨c, rest⟩
      · rw [hdrop, List.append_nil] at happ
        exact ⟨[], by simp [happ], by simpa using Shebang.last hbody⟩
      · rw [hdrop] at happ hhead
        obtain rfl : c = '\n' := hhead c (by simp)
        exact ⟨rest, by simp [happ], by simpa using Shebang.fed hbody⟩
    · simp at h
  · exact ⟨cs, rfl, .none cs⟩

/-- A byte-order mark is passed, with the `#!` line behind it if there is one. -/
theorem text_prologue_mark_cons (cs : List Char) :
    (prologue (byteOrderMark :: cs)).text = byteOrderMark :: shebangText cs := by
  simp only [prologue, shebangText, List.head?_cons, BEq.rfl, ite_true, List.length_singleton,
    List.drop_succ_cons, List.drop_zero]
  split <;> simp_all

/-- Without a byte-order mark the prologue is a `#!` line, or nothing. -/
theorem text_prologue_of_head?_ne {cs : List Char} (h : cs.head? ≠ some byteOrderMark) :
    (prologue cs).text = shebangText cs := by
  have hmark : (cs.head? == some byteOrderMark) = false := by simpa using h
  simp only [prologue, shebangText, hmark, Bool.false_eq_true, ite_false, List.length_nil,
    List.drop_zero]
  split <;> simp_all

/-- **The prologue is what its grammar says**, and a front part of the text. A byte-order mark comes
first, and a `#!` line is looked for behind it. -/
theorem opens_prologue (cs : List Char) :
    (prologue cs).text ++ content cs = cs ∧ Opens (prologue cs).text (content cs) := by
  have key : ∃ rest, (prologue cs).text ++ rest = cs ∧ Opens (prologue cs).text rest := by
    by_cases hmark : cs.head? = some byteOrderMark
    · obtain ⟨cs, rfl⟩ := List.head?_eq_some_iff.mp hmark
      obtain ⟨rest, happ, hline⟩ := shebangText_append cs
      rw [text_prologue_mark_cons]
      exact ⟨rest, by rw [List.cons_append, happ], .marked hline⟩
    · obtain ⟨rest, happ, hline⟩ := shebangText_append cs
      rw [text_prologue_of_head?_ne hmark]
      exact ⟨rest, happ, .unmarked hline⟩
  obtain ⟨rest, happ, hopens⟩ := key
  have hcontent : content cs = rest := by
    have hdrop : ((prologue cs).text ++ rest).drop (prologue cs).text.length = rest :=
      List.drop_left
    rwa [happ] at hdrop
  rw [hcontent]
  exact ⟨happ, hopens⟩

end Lexis.Trivia
