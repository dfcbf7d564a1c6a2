import Lexis.Proofs.Prologue
import Lexis.Proofs.Separation
import Mathlib.Data.List.Induction

/-!
# What a source ends in

Whether a source ends inside a string, a block comment or a command is settled by **one pass over
its characters** that knows of no tokens and no namespaces: `Mode.step` says what a character does,
and `Mode.ofText` what a text leaves the reader in. Where something is open, the mode counts the
characters from its opener on (`Mode.mark_isPrefix`).

A division leaves open what this pass leaves open (`open?_ofText`). The proof follows the parts of
a division: a gap, a lexeme and the prologue each lead from code to code, unless they lack their
closing mark. Some modes differ only in what they wait for, such as a slash that may open a
comment; they are told apart from code by the next character and not by what is open, so texts are
compared by what they leave open (`Mode.ends`).
-/

namespace Lexis

open Lexis.CharClass

/-! ### One pass over the characters -/

/-- What has a closing mark. -/
inductive Opening where
  | string
  | comment
  | command
deriving DecidableEq, Repr

namespace Opening

/-- How it begins. -/
def mark : Opening → List Char
  | string => ['"']
  | comment => ['/', '*']
  | command => [Lexeme.backtick]

/-- The code of its report if the closing mark is missing. -/
def code : Opening → Code
  | string => Code.unterminatedString
  | comment => Code.unterminatedComment
  | command => Code.unterminatedCommand

end Opening

/-- What a text leaves a reader in. Inside of something that has a closing mark, `size` counts the
characters from the opener on. -/
inductive Mode where
  /-- Nothing was read. -/
  | front
  /-- Behind a byte-order mark. -/
  | marked
  /-- Behind a number sign with which a `#!` line may begin. -/
  | hash
  /-- Among tokens and blanks. -/
  | code
  /-- Behind a slash with which a comment may begin. -/
  | slash
  /-- In a line comment or a `#!` line. -/
  | line
  /-- In a block comment. -/
  | comment (size : Nat)
  /-- In a block comment, behind a star. -/
  | star (size : Nat)
  /-- In a string. -/
  | string (size : Nat)
  /-- In a string, behind the backslash of an escape. -/
  | escape (size : Nat)
  /-- In a command. -/
  | command (size : Nat)
deriving DecidableEq, Repr

namespace Mode

/-- What a character does among tokens and blanks. -/
def enter (c : Char) : Mode :=
  if c = '"' then string 1
  else if c = Lexeme.backtick then command 1
  else if c = '/' then slash
  else code

/-- What a character does. -/
def step : Mode → Char → Mode
  | front, c =>
    if c = Trivia.byteOrderMark then marked else if c = '#' then hash else enter c
  | marked, c => if c = '#' then hash else enter c
  | hash, c => if c = '!' then line else enter c
  | code, c => enter c
  | slash, c => if c = '/' then line else if c = '*' then comment 2 else enter c
  | line, c => if c = '\n' then code else line
  | comment n, c => if c = '*' then star (n + 1) else comment (n + 1)
  | star n, c => if c = '/' then code else if c = '*' then star (n + 1) else comment (n + 1)
  | string n, c => if c = '"' then code else if c = '\\' then escape (n + 1) else string (n + 1)
  | escape n, _ => string (n + 1)
  | command n, c => if c = Lexeme.backtick then code else command (n + 1)

/-- What a source leaves a reader in. -/
def ofText (cs : List Char) : Mode :=
  cs.foldl step front

/-- What is open, and the number of characters from its opener on. -/
def open? : Mode → Option (Opening × Nat)
  | comment n | star n => some (.comment, n)
  | string n | escape n => some (.string, n)
  | command n => some (.command, n)
  | _ => none

/-! ### What is open begins with its opener -/

/-- **All that a character can do**: it is read as code, it opens a comment behind a slash, it
leaves nothing open, or it is one more of what is open. -/
theorem step_cases (m : Mode) (c : Char) :
    m.step c = enter c ∨ (m = slash ∧ c = '*' ∧ m.step c = comment 2) ∨
      ((m.step c).open? = none ∧ m.step c ≠ slash) ∨
      ∃ o n, m.open? = some (o, n) ∧ (m.step c).open? = some (o, n + 1) := by
  cases m with
  | front | marked | hash | code | slash | line =>
    simp only [step]
    repeat' split
    all_goals simp_all [open?]
  | comment n | star n | string n | escape n | command n =>
    simp only [step]
    repeat' split
    all_goals simp [open?]

/-- What is open in a mode is the end of the text, from the opener on; behind a slash, the text ends
with it. -/
structure Since (cs : List Char) (m : Mode) : Prop where
  slash : m = .slash → ['/'] <:+ cs
  opener : ∀ o n, m.open? = some (o, n) →
    ∃ inner, o.mark ++ inner <:+ cs ∧ (o.mark ++ inner).length = n

/-- Where nothing is open, nothing has to be remembered about the text. -/
private theorem since_of_open?_eq_none (cs : List Char) {m : Mode} (h : m.open? = none)
    (hm : m ≠ slash) : Since cs m :=
  ⟨fun hslash => absurd hslash hm, fun o n ho => by rw [h] at ho; cases ho⟩

/-- A character that is read as code opens at most itself, so that what is open begins with it. -/
private theorem since_enter (cs : List Char) (c : Char) : Since (cs ++ [c]) (enter c) := by
  have hsuffix : [c] <:+ cs ++ [c] := List.suffix_append _ _
  unfold enter
  split_ifs with hquote htick hslash
  · subst hquote
    exact ⟨nofun, fun o n ho => by cases ho; exact ⟨[], hsuffix, rfl⟩⟩
  · subst htick
    exact ⟨nofun, fun o n ho => by cases ho; exact ⟨[], hsuffix, rfl⟩⟩
  · subst hslash
    exact ⟨fun _ => hsuffix, nofun⟩
  · exact since_of_open?_eq_none _ rfl nofun

/-- **One character more** keeps what is known about the opener: it is still there, one character
further back. -/
theorem Since.step {cs : List Char} {m : Mode} (h : Since cs m) (c : Char) :
    Since (cs ++ [c]) (m.step c) := by
  rcases m.step_cases c with hm | ⟨rfl, rfl, hm⟩ | ⟨hm, hslash⟩ | ⟨o, n, hm, hmore⟩
  · rw [hm]
    exact since_enter cs c
  · -- the slash in front of the star is the first character of the comment
    obtain ⟨front, rfl⟩ := h.slash rfl
    rw [hm]
    refine ⟨nofun, fun o n ho => ?_⟩
    cases ho
    exact ⟨[], ⟨front, by simp [Opening.mark]⟩, rfl⟩
  · exact since_of_open?_eq_none _ hm hslash
  · obtain ⟨inner, ⟨front, rfl⟩, hlength⟩ := h.opener o n hm
    have hslash : m.step c ≠ .slash := by
      intro hslash
      rw [hslash] at hmore
      cases hmore
    refine ⟨fun h => absurd h hslash, fun o' n' ho => ?_⟩
    rw [hmore] at ho
    cases ho
    refine ⟨inner ++ [c], ⟨front, by simp only [List.append_assoc]⟩, ?_⟩
    rw [← List.append_assoc, List.length_append, hlength, List.length_singleton]

/-- What is known about the opener holds at the end of every text, by induction from the front. -/
private theorem since_ofText (cs : List Char) : Since cs (ofText cs) := by
  induction cs using List.reverseRecOn with
  | nil => exact since_of_open?_eq_none _ rfl nofun
  | append_singleton cs c ih =>
    rw [ofText, List.foldl_append]
    exact ih.step c

/-- **What is open begins with its opener**, as many characters before the end as were counted. The
opener is thus found in the source, whatever stands between. -/
theorem mark_isPrefix {cs : List Char} {o : Opening} {n : Nat}
    (h : (ofText cs).open? = some (o, n)) : n ≤ cs.length ∧ o.mark <+: cs.drop (cs.length - n) := by
  obtain ⟨inner, ⟨front, hcs⟩, hlength⟩ := (since_ofText cs).opener o n h
  have hfront : cs.length - n = front.length := by
    rw [← hcs, List.length_append, hlength, Nat.add_sub_cancel]
  refine ⟨by rw [← hcs, List.length_append]; omega, ?_⟩
  rw [hfront, ← hcs, List.drop_left]
  exact List.prefix_append _ _

-- The quotation mark in the comment opens nothing, and the last one is escaped.
example : (ofText ['/', '*', '"', '*', '/', '"', 'a', '\\', '"']).open? = some (.string, 4) := by
  decide

/-! ### What texts leave open -/

/-- What is open after a text that is read in a mode. -/
def ends (m : Mode) (cs : List Char) : Option (Opening × Nat) :=
  (cs.foldl step m).open?

@[simp]
theorem ends_nil (m : Mode) : m.ends [] = m.open? := rfl

@[simp]
theorem ends_cons (m : Mode) (c : Char) (cs : List Char) : m.ends (c :: cs) = (m.step c).ends cs :=
  rfl

/-- Characters that open nothing are passed by, and the text behind them is read as code. -/
private theorem ends_code_append {s : List Char} (h : ∀ c ∈ s, enter c = code) (cs : List Char) :
    code.ends (s ++ cs) = code.ends cs := by
  induction s with
  | nil => rfl
  | cons c s ih =>
    rw [List.forall_mem_cons] at h
    rw [List.cons_append, ends_cons, step, h.1, ih h.2]

/-- The characters of a class to which no opener belongs open nothing. -/
private theorem enter_eq_code {test : Char → Bool}
    (h : test '"' = false ∧ test Lexeme.backtick = false ∧ test '/' = false) {c : Char}
    (hc : test c = true) : enter c = code := by
  have hne : ∀ d, test d = false → c ≠ d := by
    rintro d hd rfl
    rw [hd] at hc
    cases hc
  obtain ⟨hquote, htick, hslash⟩ := h
  simp [enter, hne _ hquote, hne _ htick, hne _ hslash]

/-- A line comment lasts up to its line feed, and leaves nothing open if there is none. -/
private theorem ends_line (cs : List Char) :
    line.ends cs = code.ends (cs.dropWhile (· != '\n')) := by
  induction cs with
  | nil => rfl
  | cons c cs ih =>
    by_cases hc : c = '\n'
    · subst hc
      rfl
    · simp [step, hc, ih]

/-- Behind a slash that opens no comment, the text is read as code. -/
private theorem ends_slash {cs : List Char} (h : ∀ d ∈ cs.head?, d ≠ '/' ∧ d ≠ '*') :
    slash.ends cs = code.ends cs := by
  cases cs with
  | nil => rfl
  | cons d cs =>
    obtain ⟨hslash, hstar⟩ := h d rfl
    simp [step, hslash, hstar]

/-- Behind a star that closes no comment, the comment goes on. The mode that waits for a slash is
left again. -/
private theorem ends_star (n : Nat) {cs : List Char} (h : cs.head? ≠ some '/') :
    (star n).ends cs = (comment n).ends cs := by
  cases cs with
  | nil => rfl
  | cons d cs =>
    have hslash : d ≠ '/' := by
      rintro rfl
      exact h rfl
    simp [step, hslash]

/-- A comment lasts up to its first closing mark; without one it is open. By induction on the search
for the mark, as every other character goes on with the comment. -/
private theorem ends_comment (n : Nat) (cs : List Char) :
    (comment n).ends cs =
      match Trivia.closing? cs with
      | some (_, rest) => code.ends rest
      | none => some (.comment, n + cs.length) := by
  fun_induction Trivia.closing? cs generalizing n with
  | case1 => rfl
  | case2 rest => rfl
  | case3 c cs hopen ih =>
    have hstep : ((comment n).step c).ends cs = (comment (n + 1)).ends cs := by
      by_cases hc : c = '*'
      · subst hc
        refine ends_star (n + 1) fun hhead => ?_
        obtain ⟨rest, rfl⟩ := List.head?_eq_some_iff.mp hhead
        exact hopen rest rfl rfl
      · simp [step, hc]
    rw [ends_cons, hstep, ih]
    cases Trivia.closing? cs with
    | none => simp [Nat.add_right_comm, Nat.add_assoc]
    | some found => rfl

/-- A string lasts up to its closing mark; without one it is open. The mode goes over an escape in
two steps and the scanner in one. -/
private theorem ends_string (n : Nat) (cs : List Char) :
    (string n).ends cs =
      if (Lexeme.body cs).closed then code.ends (Lexeme.body cs).rest
      else some (.string, n + cs.length) := by
  fun_induction Lexeme.body cs generalizing n with
  | case1 => rfl
  | case2 rest => rfl
  | case3 => rfl
  | case4 c rest ih =>
    have hstep : (string n).ends ('\\' :: c :: rest) = (string (n + 2)).ends rest := rfl
    rw [hstep, ih, List.length_cons, List.length_cons, Nat.add_right_comm n]
    rfl
  | case5 c rest hquote hlone hescape ih =>
    have hslash := Lexeme.ne_backslash hlone hescape
    have hquote : c ≠ '"' := hquote
    have hstep : (string n).step c = string (n + 1) := by simp [step, hquote, hslash]
    rw [ends_cons, hstep, ih, List.length_cons, Nat.add_right_comm n]
    rfl

/-- A command lasts up to its closing mark; without one it is open. -/
private theorem ends_command (n : Nat) (cs : List Char) :
    (command n).ends cs =
      match cs.dropWhile (· != Lexeme.backtick) with
      | [] => some (.command, n + cs.length)
      | _ :: rest => code.ends rest := by
  induction cs generalizing n with
  | nil => rfl
  | cons c cs ih =>
    by_cases hc : c = Lexeme.backtick
    · subst hc
      rfl
    · have hstep : (command n).step c = command (n + 1) := by simp [step, hc]
      have hdrop : (c :: cs).dropWhile (· != Lexeme.backtick) =
          cs.dropWhile (· != Lexeme.backtick) :=
        List.dropWhile_cons_of_pos (by simpa using hc)
      rw [ends_cons, hstep, ih, hdrop, List.length_cons, Nat.add_right_comm n]
      rfl

end Mode

/-! ### What the parts of a division leave open -/

/-- What a flaw says is open. -/
def Flaw.opening? : Flaw → Option Opening
  | unterminatedString => some .string
  | unterminatedCommand => some .command
  | _ => none

/-- What a lexeme leaves open, with the number of its characters. -/
def Lexeme.unfinished? (x : Lexeme) : Option (Opening × Nat) :=
  (x.flaws.findSome? Flaw.opening?).map fun o => (o, x.text.length)

/-- What a gap leaves open, with the number of characters from its opener on. -/
def Gap.unfinished? (gap : Gap) : Option (Opening × Nat) :=
  gap.unclosed.map fun skip => (.comment, gap.text.length - skip)

/-- What a division leaves open. -/
def Division.unfinished? : Division → Option (Opening × Nat)
  | ending gap => gap.unfinished?
  | item _ x more => x.unfinished?.or more.unfinished?

/-- A text in front of a gap does not change what the gap leaves open. -/
private theorem Gap.unfinished?_prepend (text : List Char) (gap : Gap) :
    (gap.prepend text).unfinished? = gap.unfinished? := by
  rcases hopen : gap.unclosed with _ | skip
  · simp [unfinished?, prepend, hopen]
  · simp only [unfinished?, prepend, hopen, Option.map_some, List.length_append]
    congr 2
    omega

namespace Mode

/-- **A gap leads from code to code**, unless its last comment is open. By induction along the gap,
where each comment is a way from code to code. -/
theorem ends_gap (cs : List Char) :
    code.ends cs = (Trivia.scan cs).unfinished?.or (code.ends (Trivia.scan cs).rest) := by
  fun_induction Trivia.scan cs with
  | case1 => rfl
  | case2 cs ih =>
    rw [Gap.unfinished?_prepend, Gap.rest_prepend, ← ih, ← ends_line]
    rfl
  | case3 cs body rest h ih =>
    have hcomment : code.ends ('/' :: '*' :: cs) = (comment 2).ends cs := rfl
    rw [Gap.unfinished?_prepend, Gap.rest_prepend, ← ih, hcomment, ends_comment, h]
  | case4 cs h =>
    have hcomment : code.ends ('/' :: '*' :: cs) = (comment 2).ends cs := rfl
    rw [hcomment, ends_comment, h, Nat.add_comm]
    rfl
  | case5 c cs _ _ hc ih =>
    have henter : enter c = code := enter_eq_code (by decide) hc
    rw [Gap.unfinished?_prepend, Gap.rest_prepend, ← ih, ends_cons, step, henter]
  | case6 => rfl

/-! #### Lexemes -/

private theorem enter_of_isDigit {c : Char} (h : c.isDigit = true) : enter c = code :=
  enter_eq_code (by decide) h

private theorem enter_of_isNameContinue {c : Char} (h : isNameContinue c = true) : enter c = code :=
  enter_eq_code (by decide) h

/-- Neither a base mark nor a digit of its base opens anything. -/
private theorem enter_digit {mark : Char} {digit : Char → Bool}
    (hmark : Lexeme.basedDigit? mark = some digit) :
    enter mark = code ∧ ∀ c, digit c = true → enter c = code := by
  have hmarks : ∀ m ∈ ['x', 'X', 'b', 'B'], enter m = code :=
    List.all_iff_forall_prop.mp (by decide)
  rcases Lexeme.basedDigit?_cases hmark with ⟨hmem, rfl⟩ | ⟨hmem, rfl⟩
  · exact ⟨hmarks mark (List.mem_append_left ['b', 'B'] hmem), fun c => enter_eq_code (by decide)⟩
  · exact ⟨hmarks mark (List.mem_append_right ['x', 'X'] hmem), fun c => enter_eq_code (by decide)⟩

private theorem enter_of_mem_decimal (cs : List Char) :
    ∀ c ∈ (Lexeme.decimal [] cs).text, enter c = code := by
  have htake : ∀ s : List Char, ∀ c ∈ s.takeWhile Char.isDigit, enter c = code :=
    fun s c hc => enter_of_isDigit (List.mem_takeWhile_imp hc)
  unfold Lexeme.decimal
  split
  · split
    · simp only [List.forall_mem_append, List.forall_mem_cons]
      exact ⟨htake _, rfl, htake _⟩
    · exact htake _
  · exact htake _

/-- No character of a number opens anything: digits, a point, and the letter of a base mark. -/
private theorem enter_of_mem_number (cs : List Char) :
    ∀ c ∈ (Lexeme.number [] cs).text, enter c = code := by
  unfold Lexeme.number
  split
  · next mark cs =>
    split
    · next digit hmark =>
      obtain ⟨henter, hdigit⟩ := enter_digit hmark
      simp only [Lexeme.based, List.forall_mem_cons]
      exact ⟨rfl, henter, fun c hc => hdigit c (List.mem_takeWhile_imp hc)⟩
    · exact enter_of_mem_decimal _
  · exact enter_of_mem_decimal _

private theorem enter_of_mem_run (cs : List Char) : ∀ c ∈ Lexeme.run cs, enter c = code := by
  rw [Lexeme.run, List.forall_mem_append]
  refine ⟨fun c hc => enter_of_isNameContinue (List.mem_takeWhile_imp hc), ?_⟩
  fun_cases Lexeme.suffix (cs.dropWhile isNameContinue) <;> simp [enter, Lexeme.backtick]

/-- No character of a word opens anything, the point in front of a member included. -/
private theorem enter_of_mem_word (names : Namespaces) (cs : List Char) :
    ∀ c ∈ (Lexeme.word names [] cs).text, enter c = code := by
  unfold Lexeme.word
  split
  · simp only [List.forall_mem_append, List.forall_mem_cons]
    exact ⟨enter_of_mem_run _, rfl, enter_of_mem_run _⟩
  · exact enter_of_mem_run _

/-- A mark at which no gap starts opens nothing. -/
private theorem ends_mark {c : Char} {cs : List Char} (hc : c ∈ Symbol.marks)
    (h : Trivia.Clear (c :: cs)) : code.ends (c :: cs) = code.ends cs := by
  by_cases hslash : c = '/'
  · subst hslash
    exact ends_slash (h.2 rfl)
  · obtain ⟨-, -, -, hquote, htick⟩ := Symbol.class_of_mem_marks c hc
    simp [step, enter, hquote, htick, hslash]

private theorem enter_of_extend? {s longer : Symbol} {d : Char} (h : s.extend? d = some longer) :
    enter d = code := by
  unfold Symbol.extend? at h
  split at h
  all_goals first | rfl | cases h

/-- A symbol leads from code to code. Its slash, if it is one, opens no comment, since no gap starts
there. -/
private theorem ends_symbol {s : Symbol} {c : Char} {rest : List Char}
    (hs : Symbol.ofChar? c = some s) (h : Trivia.Clear (c :: rest)) :
    code.ends (c :: rest) = code.ends (Lexeme.symbol s [] (c :: rest)).rest := by
  rw [ends_mark (Symbol.mem_marks_of_ofChar? hs) h]
  cases rest with
  | nil => rfl
  | cons d rest =>
    simp only [Lexeme.symbol]
    split
    · next longer hextend => rw [ends_cons, step, enter_of_extend? hextend]
    · rfl

/-- A character that starts nothing opens nothing. -/
private theorem enter_of_not_starts {c : Char} (h : Lexeme.starts c = false) : enter c = code := by
  have hslash : c ≠ '/' := by
    rintro rfl
    cases h
  simp only [Lexeme.starts, Bool.or_eq_false_iff, beq_eq_false_iff_ne] at h
  obtain ⟨⟨⟨⟨-, hquote⟩, htick⟩, -⟩, -⟩ := h
  simp [enter, hquote, htick, hslash]

end Mode

/-- The flaws that leave something open are those that name an opener. -/
theorem Flaw.isSome_opening? (f : Flaw) : f.opening?.isSome = f.isOpen := by
  cases f <;> rfl

namespace Lexeme

private theorem findSome?_opening? {flaws : List Flaw} (h : flaws.any Flaw.isOpen = false) :
    flaws.findSome? Flaw.opening? = none := by
  refine List.findSome?_eq_none_iff.mpr fun f hf => ?_
  have hopen := List.any_eq_false.mp h f hf
  rwa [← f.isSome_opening?, Option.not_isSome_iff_eq_none] at hopen

/-- A lexeme with its closing mark leaves nothing open. -/
theorem unfinished?_of_not_isOpen {x : Lexeme} (h : x.isOpen = false) : x.unfinished? = none := by
  rw [unfinished?, findSome?_opening? h, Option.map_none]

/-- A string without its closing mark is open from its first character on, and what it takes is all
that follows. -/
theorem unfinished?_quotation (rest : List Char) :
    (quotation ('"' :: rest)).unfinished? =
      if (body rest).closed then none else some (.string, 1 + rest.length) := by
  have hflaws : (quotation ('"' :: rest)).flaws = pieceFlaws 1 (body rest).pieces ++
      if (body rest).closed then [] else [.unterminatedString] := rfl
  rw [unfinished?, hflaws, List.findSome?_append, findSome?_opening? (any_isOpen_pieceFlaws _ _),
    Option.none_or]
  split
  · rfl
  · next hclosed =>
    have happ := body_append rest
    rw [rest_body_of_not_closed (by simpa using hclosed), List.append_nil] at happ
    have htext : (quotation ('"' :: rest)).text = '"' :: (body rest).text := rfl
    rw [htext, happ, List.length_cons, Nat.add_comm]
    rfl

/-- A command without its closing mark is open from its first character on, and it takes the rest of
the text. -/
theorem unfinished?_command (rest : List Char) :
    (command (backtick :: rest)).unfinished? =
      match rest.dropWhile (· != backtick) with
      | [] => some (.command, 1 + rest.length)
      | _ :: _ => none := by
  have happ := List.takeWhile_append_dropWhile (p := (· != backtick)) (l := rest)
  rcases hdrop : rest.dropWhile (· != backtick) with _ | ⟨c, t⟩
  · rw [hdrop, List.append_nil] at happ
    simp [unfinished?, command, hdrop, happ, Flaw.opening?, Nat.add_comm]
  · rw [command_of_dropWhile hdrop]
    rfl

end Lexeme

namespace Mode

/-- A lexeme whose characters open nothing leads from code to code. -/
private theorem ends_of_enter {x : Lexeme} (henter : ∀ d ∈ x.text, enter d = code)
    (hopen : x.isOpen = false) :
    code.ends (x.text ++ x.rest) = x.unfinished?.or (code.ends x.rest) := by
  rw [Lexeme.unfinished?_of_not_isOpen hopen, ends_code_append henter, Option.none_or]

/-- **A lexeme leads from code to code**, unless its closing mark is missing. Symbols, numbers and
words hold no character that opens anything, except for a slash, behind which no comment starts
here. -/
theorem ends_lexeme (names : Namespaces) {c : Char} {rest : List Char}
    (h : Trivia.Clear (c :: rest)) :
    code.ends (c :: rest) =
      (Lexeme.scan names c rest).unfinished?.or (code.ends (Lexeme.scan names c rest).rest) := by
  have happ := Lexeme.scan_append names c rest
  have hscans := Lexeme.scans_scan names rest c
  generalize Lexeme.scan names c rest = x at happ hscans
  cases hscans with
  | @symbol c s _ hs =>
    have hopen : (Lexeme.symbol s [] (c :: rest)).isOpen = false := by
      rw [Lexeme.isOpen, Lexeme.flaws_symbol, List.any_nil]
    rw [Lexeme.unfinished?_of_not_isOpen hopen, Option.none_or, ends_symbol hs h]
  | quotation =>
    have hstring : code.ends ('"' :: rest) = (string 1).ends rest := rfl
    rw [hstring, ends_string, Lexeme.unfinished?_quotation]
    split <;> rfl
  | command =>
    have hcommand : code.ends (Lexeme.backtick :: rest) = (command 1).ends rest := rfl
    rw [hcommand, ends_command, Lexeme.unfinished?_command]
    rcases hdrop : rest.dropWhile (· != Lexeme.backtick) with _ | ⟨d, t⟩
    · rfl
    · rw [Lexeme.command_of_dropWhile hdrop]
      rfl
  | @number c _ hdigit =>
    conv => lhs; rw [← happ]
    exact ends_of_enter (enter_of_mem_number _) (Lexeme.isOpen_number [] _)
  | @word c _ hname =>
    conv => lhs; rw [← happ]
    exact ends_of_enter (enter_of_mem_word names _)
      (by rw [Lexeme.isOpen, Lexeme.flaws_word, List.any_nil])
  | illegal _ hstarts =>
    rw [ends_cons, step, enter_of_not_starts hstarts]
    rfl

/-! #### The prologue -/

/-- In front of a text that begins with no prologue, the modes of the prologue do as code does. Two
characters are enough to see this. -/
private theorem ends_marked {cs : List Char} (h : ¬ ['#', '!'] <+: cs) :
    marked.ends cs = code.ends cs := by
  match cs with
  | [] => rfl
  | [c] =>
    by_cases hc : c = '#'
    · subst hc
      rfl
    · simp [step, hc]
  | c :: d :: cs =>
    by_cases hc : c = '#'
    · subst hc
      have hd : d ≠ '!' := by
        rintro rfl
        exact h (Trivia.shebang_isPrefix_iff.mpr ⟨cs, rfl⟩)
      have henter : enter '#' = code := rfl
      simp [step, hd, henter]
    · simp [step, hc]

/-- Without a byte-order mark the first character is read as the first behind one. -/
private theorem ends_front {cs : List Char} (h : cs.head? ≠ some Trivia.byteOrderMark) :
    front.ends cs = marked.ends cs := by
  cases cs with
  | nil => rfl
  | cons c cs =>
    have hc : c ≠ Trivia.byteOrderMark := by
      rintro rfl
      exact h rfl
    simp [step, hc]

/-- A `#!` line leads to code. It is read like a line comment, and so is left at its line feed. -/
private theorem ends_marked_shebang {text rest : List Char} (h : Trivia.Shebang text rest)
    (hnone : text = [] → ¬ ['#', '!'] <+: rest) : marked.ends (text ++ rest) = code.ends rest := by
  have hline : ∀ body cs : List Char, '\n' ∉ body →
      line.ends (body ++ cs) = code.ends (cs.dropWhile (· != '\n')) := by
    intro body cs hbody
    rw [ends_line, List.dropWhile_append_of_pos (Trivia.bne_newline hbody)]
  cases h with
  | none => exact ends_marked (hnone rfl)
  | @fed body _ hbody =>
    have hends : marked.ends ('#' :: '!' :: (body ++ ['\n']) ++ rest) =
        line.ends (body ++ '\n' :: rest) := by
      simp [step]
    rw [hends, hline body _ hbody]
    rfl
  | @last body hbody =>
    have hends : marked.ends ('#' :: '!' :: body ++ []) = line.ends (body ++ []) := rfl
    rw [hends, hline body _ hbody]
    rfl

/-- **The prologue leads to code**, with a byte-order mark, a `#!` line, both or neither. -/
theorem ends_prologue {text rest : List Char} (h : Trivia.Leads text rest) :
    front.ends (text ++ rest) = code.ends rest := by
  obtain ⟨hopens, hmark, hshebang⟩ := h
  cases hopens with
  | unmarked hline =>
    rw [ends_front (hline.head?_ne hmark)]
    exact ends_marked_shebang hline fun hnil => hshebang (.inl hnil)
  | @marked line _ hline =>
    exact ends_marked_shebang hline fun hnil => hshebang (.inr (by rw [hnil]))

/-! #### Divisions -/

/-- A division leaves open what its last part leaves open, by induction over the parts from code to
code. -/
private theorem ends_divide (names : Namespaces) (cs : List Char) :
    code.ends cs = (divide names cs).unfinished? := by
  fun_induction divide names cs with
  | case1 cs hrest =>
    rw [ends_gap, hrest]
    exact Option.or_none
  | case2 cs c rest hrest ih =>
    have hclear := Trivia.clear_rest_scan cs
    rw [hrest] at hclear
    have hclosed : (Trivia.scan cs).unclosed = none := Trivia.unclosed_of_rest_eq_cons hrest
    have hgap : (Trivia.scan cs).unfinished? = none := by
      rw [Gap.unfinished?, hclosed, Option.map_none]
    rw [ends_gap, hgap, Option.none_or, hrest, ends_lexeme names hclear, ih]
    rfl

end Mode

/-- **A division leaves open what one pass over the characters leaves open**, whatever the
namespaces. -/
theorem open?_ofText (names : Namespaces) (cs : List Char) :
    (Mode.ofText cs).open? = (divide names (Trivia.content cs)).unfinished? := by
  have hends := Mode.ends_prologue (Trivia.leads_prologue cs)
  rw [(Trivia.opens_prologue cs).1] at hends
  exact hends.trans (Mode.ends_divide names _)

end Lexis
