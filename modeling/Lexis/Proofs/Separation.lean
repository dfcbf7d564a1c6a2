import Lexis.Proofs.Dispatch

/-!
# Lexemes and the text behind them

A scanner looks at most two characters past the end of its lexeme, and a blank tells it no more
than the end of the input does. What it can see of the text behind is therefore `sight`, and
`SeparatesLike r r'` says that `r'` ends a lexeme as `r` does: it is empty or begins with a blank,
or it looks the same. The main statement is `scan_of_separatesLike`: a lexeme that was read in front
of `r` is read again, the same in all respects, in front of `r'`. The exception is a string or a
command **without its closing mark**, which takes whatever follows.

Each look past the end is a `Lookahead`: a function of the text behind that depends on what is in
sight and has a fixed value at a blank. The scanners are then taken one by one.
-/

namespace Lexis

open Lexis.CharClass

/-! ### Texts that end a lexeme -/

/-- The text is empty or begins with a blank. -/
def Blunt (r : List Char) : Prop :=
  ∀ c ∈ r.head?, isBlank c = true

/-- A text that begins with a blank is blunt, like the end of the input. -/
private theorem blunt_cons {c : Char} {r : List Char} (h : isBlank c = true) : Blunt (c :: r) := by
  intro d hd
  obtain rfl := Option.some.inj hd
  exact h

/-- What a scanner can see of the text behind its lexeme: two characters, and nothing from a blank
on. -/
def sight (r : List Char) : List Char :=
  (r.take 2).takeWhile fun c => !isBlank c

/-- The text `r'` ends a lexeme as `r` does. -/
def SeparatesLike (r r' : List Char) : Prop :=
  Blunt r' ∨ sight r' = sight r

/-- Nothing is in sight at a blunt text, so all blunt texts look the same. -/
private theorem sight_of_blunt {r : List Char} (h : Blunt r) : sight r = [] := by
  cases r with
  | nil => rfl
  | cons c r => simp [sight, h c rfl]

private theorem sight_cons {c : Char} (r : List Char) (h : isBlank c = false) :
    sight (c :: r) = c :: (r.take 1).takeWhile fun d => !isBlank d := by
  simp [sight, h]

private theorem head?_of_sight_eq_cons {c : Char} {r t : List Char} (h : sight r = c :: t) :
    r.head? = some c := by
  cases r with
  | nil => cases h
  | cons d r =>
    rcases hd : isBlank d with _ | _
    · rw [sight_cons r hd] at h
      rw [(List.cons.inj h).1]
      rfl
    · rw [sight_of_blunt (blunt_cons hd)] at h
      cases h

/-- Texts with the same two characters in front look the same. -/
theorem SeparatesLike.of_take {r r' : List Char} (h : r'.take 2 = r.take 2) : SeparatesLike r r' :=
  .inr (by rw [sight, h, sight])

/-- A blank behind a text looks like its end. This is what makes room for blanks between any two
lexemes. -/
theorem separatesLike_append_blank (r : List Char) {c : Char} (b : List Char)
    (hc : isBlank c = true) : SeparatesLike r (r ++ c :: b) := by
  match r with
  | [] => exact .inl (blunt_cons hc)
  | [x] => exact .inr (by simp [sight, List.takeWhile_cons, hc])
  | x :: y :: r => exact .of_take rfl

/-- A look at what follows: it depends on what is in sight, and it has a fixed value where nothing
is. -/
structure Lookahead {α : Type} (look : List Char → α) (rest : α) : Prop where
  /-- What is in sight decides. -/
  near : ∀ r, look (sight r) = look r
  /-- The value at the end of the input. -/
  nil : look [] = rest

/-- What is seen of a text at the end of a lexeme is seen of any text that looks like it. -/
private theorem Lookahead.of_separatesLike {α : Type} {look : List Char → α} {rest : α}
    (h : Lookahead look rest) {r r' : List Char} (hr : look r = rest)
    (hlike : SeparatesLike r r') : look r' = rest := by
  rcases hlike with hblunt | hsight
  · rw [← h.near, sight_of_blunt hblunt, h.nil]
  · rw [← h.near, hsight, h.near, hr]

/-- A look has to be examined at texts that are empty or begin with a blank, and at those with a
character in sight. -/
private theorem lookahead_of_cases {α : Type} {look : List Char → α} {rest : α}
    (hblunt : ∀ r, Blunt r → look r = rest)
    (hcons : ∀ c r, isBlank c = false →
      look (c :: (r.take 1).takeWhile fun d => !isBlank d) = look (c :: r)) :
    Lookahead look rest where
  near r := by
    by_cases hr : Blunt r
    · rw [sight_of_blunt hr, hblunt r hr, hblunt [] (by simp [Blunt])]
    · cases r with
      | nil => exact absurd (by simp [Blunt]) hr
      | cons c r =>
        have hc : isBlank c = false := by simpa [Blunt] using hr
        rw [sight_cons r hc, hcons c r hc]
  nil := hblunt [] (by simp [Blunt])

/-- The first character passes a test. -/
def headIs (test : Char → Bool) : List Char → Bool
  | [] => false
  | c :: _ => test c

/-- A test that no blank passes sees no difference between a blank and the end, so it may be asked
about what is in sight. -/
private theorem headIs_takeWhile_take {test : Char → Bool}
    (h : ∀ c, isBlank c = true → test c = false) (r : List Char) :
    headIs test ((r.take 1).takeWhile fun d => !isBlank d) = headIs test r := by
  cases r with
  | nil => rfl
  | cons c r =>
    rcases hc : isBlank c with _ | _
    · simp [headIs, hc]
    · simp [headIs, hc, h c hc]

/-- A test of the next character is a look ahead, if no blank passes it. -/
private theorem lookahead_headIs {test : Char → Bool} (h : ∀ c, isBlank c = true → test c = false) :
    Lookahead (headIs test) false := by
  refine lookahead_of_cases (fun r hr => ?_) fun c r _ => rfl
  cases r with
  | nil => rfl
  | cons c r => exact h c (hr c rfl)

/-- A mark stands first, and the character behind it passes a test. -/
def pairIs (mark : Char) (test : Char → Bool) : List Char → Bool
  | c :: d :: _ => c == mark && test d
  | _ => false

theorem pairIs_cons (mark : Char) (test : Char → Bool) (c : Char) (r : List Char) :
    pairIs mark test (c :: r) = (c == mark && headIs test r) := by
  cases r with
  | nil => simp [pairIs, headIs]
  | cons d r => rfl

/-- A test of the next two characters is a look ahead, if neither of them can be a blank. A blank
then fails the test as well as the end of the text. -/
private theorem lookahead_pairIs {mark : Char} {test : Char → Bool} (hmark : isBlank mark = false)
    (h : ∀ c, isBlank c = true → test c = false) : Lookahead (pairIs mark test) false := by
  refine lookahead_of_cases (fun r hr => ?_) fun c r _ => ?_
  · cases r with
    | nil => rfl
    | cons c r =>
      have hc : c ≠ mark := by
        rintro rfl
        exact absurd (hr c rfl) (by simp [hmark])
      simp [pairIs_cons, hc]
  · rw [pairIs_cons, pairIs_cons, headIs_takeWhile_take h]

/-- A pair that is seen is there: the mark, and a character behind it that passes the test. -/
theorem exists_of_pairIs {mark : Char} {test : Char → Bool} {r : List Char}
    (h : pairIs mark test r = true) : ∃ d rest, r = mark :: d :: rest ∧ test d = true := by
  match r with
  | [] => cases h
  | [c] => cases h
  | c :: d :: rest =>
    simp only [pairIs, Bool.and_eq_true, beq_iff_eq] at h
    obtain ⟨rfl, hd⟩ := h
    exact ⟨d, rest, rfl, hd⟩

/-- A pair that reaches past the end of a text is as little there as before: what is behind begins
as it used to, or with a blank. -/
private theorem pairIs_append_of_separatesLike {mark : Char} {test : Char → Bool}
    {s r r' : List Char} (htest : ∀ c, isBlank c = true → test c = false) (hs : s ≠ [])
    (h : pairIs mark test (s ++ r) = false) (hlike : SeparatesLike r r') :
    pairIs mark test (s ++ r') = false := by
  match s with
  | [] => exact absurd rfl hs
  | [c] =>
    rw [List.singleton_append, pairIs_cons] at h ⊢
    rcases hc : (c == mark) with _ | _
    · rfl
    · rw [hc, Bool.true_and] at h
      rw [Bool.true_and]
      exact (lookahead_headIs htest).of_separatesLike h hlike
  | c :: d :: s => exact h

/-! ### Lexemes without their end -/

/-- A closing mark is missing. -/
def Flaw.isOpen : Flaw → Bool
  | unterminatedString | unterminatedCommand => true
  | _ => false

/-- The lexeme is a string or a command without its closing mark. -/
def Lexeme.isOpen (x : Lexeme) : Bool :=
  x.flaws.any Flaw.isOpen

/-! ### Runs of characters -/

/-- Behind a run stands no character that would go on with it. -/
theorem headIs_dropWhile (test : Char → Bool) (cs : List Char) :
    headIs test (cs.dropWhile test) = false := by
  rcases h : cs.dropWhile test with _ | ⟨c, r⟩
  · rfl
  · have hhead := List.head?_dropWhile_not test cs
    rw [h] at hhead
    exact hhead

section Runs

variable {test : Char → Bool} {s r : List Char}

/-- No run begins at a character that does not pass the test. -/
theorem takeWhile_eq_nil_of_headIs (h : headIs test r = false) : r.takeWhile test = [] := by
  cases r with
  | nil => rfl
  | cons c r => exact List.takeWhile_cons_of_neg (by simpa [headIs] using h)

private theorem dropWhile_eq_self_of_headIs (h : headIs test r = false) : r.dropWhile test = r := by
  cases r with
  | nil => rfl
  | cons c r => exact List.dropWhile_cons_of_neg (by simpa [headIs] using h)

/-- A run ends in front of a character that does not belong to it. -/
theorem takeWhile_append_of_headIs (hs : ∀ c ∈ s, test c = true) (h : headIs test r = false) :
    (s ++ r).takeWhile test = s := by
  rw [List.takeWhile_append_of_pos hs, takeWhile_eq_nil_of_headIs h, List.append_nil]

/-- Behind a run stands the character that does not belong to it. -/
theorem dropWhile_append_of_headIs (hs : ∀ c ∈ s, test c = true) (h : headIs test r = false) :
    (s ++ r).dropWhile test = r := by
  rw [List.dropWhile_append_of_pos hs, dropWhile_eq_self_of_headIs h]

end Runs

namespace Lexeme

/-! ### Symbols -/

/-- A symbol stays what it is in front of a character that does not extend it. -/
theorem symbol_of_headIs (s : Symbol) (pending : List Char) (c : Char) {r : List Char}
    (h : headIs (fun d => (s.extend? d).isSome) r = false) :
    symbol s pending (c :: r) = ⟨.symbol s, pending ++ [c], [c], r, []⟩ := by
  cases r with
  | nil => rfl
  | cons d r =>
    have hnone : s.extend? d = none := by simpa [headIs] using h
    simp [symbol, hnone]

private theorem extend?_of_isBlank (s : Symbol) {c : Char} (h : isBlank c = true) :
    (s.extend? c).isSome = false := by
  rcases isBlank_iff.mp h with rfl | rfl | rfl | rfl <;> cases s <;> rfl

/-- A symbol is read again in front of a text that ends it likewise: what follows extends
neither. -/
private theorem symbol_of_separatesLike (s : Symbol) (c : Char) (rest : List Char) {r : List Char}
    (h : SeparatesLike (symbol s [] (c :: rest)).rest r) :
    symbol s [] ((symbol s [] (c :: rest)).text ++ r) =
      { symbol s [] (c :: rest) with rest := r } := by
  rcases hext : headIs (fun d => (s.extend? d).isSome) rest with _ | _
  · rw [symbol_of_headIs s [] c hext] at h ⊢
    have hlook : Lookahead (headIs fun d => (s.extend? d).isSome) false :=
      lookahead_headIs fun _ => extend?_of_isBlank s
    exact symbol_of_headIs s [] c (hlook.of_separatesLike hext h)
  · -- the lexeme has its two characters and looks no further
    cases rest with
    | nil => cases hext
    | cons d rest =>
      obtain ⟨longer, hlonger⟩ := Option.isSome_iff_exists.mp hext
      simp [symbol, hlonger]

/-! ### Strings and commands -/

/-- A character with which no escape begins is no backslash. -/
theorem ne_backslash {c : Char} {rest : List Char} (hlone : c = '\\' → rest = [] → False)
    (hescape : ∀ d more, c = '\\' → rest = d :: more → False) : c ≠ '\\' := by
  rintro rfl
  cases rest with
  | nil => exact hlone rfl rfl
  | cons d more => exact hescape d more rfl rfl

/-- A closed body is read again in front of any text, as the mark that closes it belongs to it. -/
private theorem body_of_closed {cs : List Char} (r : List Char) (h : (body cs).closed = true) :
    body ((body cs).text ++ r) = { body cs with rest := r } := by
  fun_induction body cs with
  | case1 => simp at h
  | case2 rest => rfl
  | case3 => simp at h
  | case4 c rest ih =>
    rw [Body.text_cons]
    have ih := ih h
    simp [Piece.text, body, ih, Body.cons]
  | case5 c rest hquote hlone hescape ih =>
    have hslash := ne_backslash hlone hescape
    rw [Body.text_cons, Piece.text, List.append_assoc, List.singleton_append,
      body_plain_cons _ hquote hslash, ih h]
    rfl

/-- A body without its closing mark takes all that follows. -/
theorem rest_body_of_not_closed {cs : List Char} (h : (body cs).closed = false) :
    (body cs).rest = [] := by
  fun_induction body cs with
  | case1 => rfl
  | case2 rest => simp at h
  | case3 => rfl
  | case4 c rest ih => exact ih h
  | case5 c rest hquote hlone hescape ih => exact ih h

/-- Nothing inside a string leaves it open; only a missing mark behind its body does. -/
theorem any_isOpen_pieceFlaws (skip : Nat) (ps : List Piece) :
    (pieceFlaws skip ps).any Flaw.isOpen = false := by
  induction ps generalizing skip with
  | nil => rfl
  | cons p ps ih =>
    rw [pieceFlaws, List.any_append, ih, Bool.or_false]
    cases p with
    | plain c => rfl
    | escape c =>
      simp only [Piece.flaw?]
      split <;> rfl
    | dangling => rfl

private theorem isOpen_quotation (cs : List Char) :
    (quotation cs).isOpen = !(body (cs.drop 1)).closed := by
  simp only [isOpen, quotation, List.any_append, any_isOpen_pieceFlaws, Bool.false_or]
  cases (body (cs.drop 1)).closed <;> rfl

/-- A closed string is read again in front of any text, as nothing behind its closing mark was
looked at. -/
private theorem quotation_of_not_isOpen {cs : List Char} (r : List Char)
    (h : (quotation ('"' :: cs)).isOpen = false) :
    quotation ((quotation ('"' :: cs)).text ++ r) = { quotation ('"' :: cs) with rest := r } := by
  have hclosed : (body cs).closed = true := by simpa [isOpen_quotation] using h
  have htext : (quotation ('"' :: cs)).text ++ r = '"' :: ((body cs).text ++ r) := rfl
  rw [htext]
  simp only [quotation, List.take_succ_cons, List.take_zero, List.drop_succ_cons, List.drop_zero,
    body_of_closed r hclosed]
  rfl

/-- A command ends with the next backtick. -/
theorem command_of_dropWhile {cs : List Char} {c : Char} {rest : List Char}
    (h : cs.dropWhile (· != backtick) = c :: rest) :
    command (backtick :: cs) =
      ⟨.command, cs.takeWhile (· != backtick), backtick :: cs.takeWhile (· != backtick) ++ [c],
        rest, []⟩ := by
  simp [command, h]

/-- A closed command is read again in front of any text, as it ends with the first backtick. -/
private theorem command_of_not_isOpen {cs : List Char} (r : List Char)
    (h : (command (backtick :: cs)).isOpen = false) :
    command ((command (backtick :: cs)).text ++ r) =
      { command (backtick :: cs) with rest := r } := by
  rcases hdrop : cs.dropWhile (· != backtick) with _ | ⟨c, rest⟩
  · simp [command, hdrop, isOpen, Flaw.isOpen] at h
  · have hinner : ∀ c ∈ cs.takeWhile (· != backtick), (c != backtick) = true :=
      fun _ => List.mem_takeWhile_imp
    have hhead : headIs (· != backtick) (c :: r) = false := by
      have := headIs_dropWhile (· != backtick) cs
      rwa [hdrop] at this
    have hdrop' : (cs.takeWhile (· != backtick) ++ c :: r).dropWhile (· != backtick) = c :: r :=
      dropWhile_append_of_headIs hinner hhead
    rw [command_of_dropWhile hdrop]
    have htext : backtick :: cs.takeWhile (· != backtick) ++ [c] ++ r =
        backtick :: (cs.takeWhile (· != backtick) ++ c :: r) := by simp
    rw [htext, command_of_dropWhile hdrop', takeWhile_append_of_headIs hinner hhead]

/-! ### Numbers -/

/-- A zero in front of a base mark. -/
def startsBased : List Char → Bool :=
  pairIs '0' fun mark => (basedDigit? mark).isSome

/-- A point in front of a digit. -/
def startsFraction : List Char → Bool :=
  pairIs '.' Char.isDigit

/-- A base mark behind a zero begins a number in that base, with digits or without. -/
private theorem number_of_basedDigit? {mark : Char} {digit : Char → Bool} (pending cs : List Char)
    (h : basedDigit? mark = some digit) :
    number pending ('0' :: mark :: cs) = based digit pending mark cs := by
  simp [number, h]

/-- A number without a base mark is decimal. -/
private theorem number_of_not_startsBased (pending : List Char) {cs : List Char}
    (h : startsBased cs = false) : number pending cs = decimal pending cs := by
  unfold number
  split
  · next mark cs =>
    have hnone : basedDigit? mark = none := by simpa [startsBased, pairIs] using h
    rw [hnone]
  · rfl

/-- Without a point in front of a digit, a decimal number is the run of digits. -/
theorem decimal_of_not_startsFraction (pending : List Char) {cs : List Char}
    (h : startsFraction (cs.dropWhile Char.isDigit) = false) :
    decimal pending cs = ⟨.int, pending ++ cs.takeWhile Char.isDigit, cs.takeWhile Char.isDigit,
      cs.dropWhile Char.isDigit, []⟩ := by
  unfold decimal
  split
  · next d rest hdrop =>
    rw [hdrop] at h
    have hd : d.isDigit = false := by simpa [startsFraction, pairIs] using h
    simp [hd, hdrop]
  · rfl

/-- With a point in front of a digit, a decimal number is two runs of digits and the point. -/
theorem decimal_of_startsFraction (pending : List Char) {cs rest : List Char}
    (h : cs.dropWhile Char.isDigit = '.' :: rest) (hd : headIs Char.isDigit rest = true) :
    decimal pending cs =
      ⟨.float, pending ++ (cs.takeWhile Char.isDigit ++ '.' :: rest.takeWhile Char.isDigit),
        cs.takeWhile Char.isDigit ++ '.' :: rest.takeWhile Char.isDigit,
        rest.dropWhile Char.isDigit, []⟩ := by
  cases rest with
  | nil => cases hd
  | cons d rest =>
    have hd : d.isDigit = true := hd
    simp only [decimal, h, hd, ite_true]

private theorem basedDigit?_of_isBlank {c : Char} (h : isBlank c = true) :
    (basedDigit? c).isSome = false := by
  rcases isBlank_iff.mp h with rfl | rfl | rfl | rfl <;> rfl

/-- There are two bases, each with a mark of either case. -/
theorem basedDigit?_cases {mark : Char} {digit : Char → Bool} (h : basedDigit? mark = some digit) :
    mark ∈ ['x', 'X'] ∧ digit = isHexDigit ∨ mark ∈ ['b', 'B'] ∧ digit = isBinDigit := by
  unfold basedDigit? at h
  split_ifs at h with hhex hbin
  · exact .inl ⟨by simpa using hhex, (Option.some.inj h).symm⟩
  · exact .inr ⟨by simpa using hbin, (Option.some.inj h).symm⟩

/-- **A number by its front**: a base mark behind a zero, or a decimal number. -/
theorem number_cases (pending cs : List Char) :
    startsBased cs = false ∧ number pending cs = decimal pending cs ∨
      ∃ mark digit rest, cs = '0' :: mark :: rest ∧ basedDigit? mark = some digit ∧
        number pending cs = based digit pending mark rest := by
  rcases hbased : startsBased cs with _ | _
  · exact .inl ⟨rfl, number_of_not_startsBased pending hbased⟩
  · obtain ⟨mark, rest, rfl, hmark⟩ := exists_of_pairIs hbased
    obtain ⟨digit, hdigit⟩ := Option.isSome_iff_exists.mp hmark
    exact .inr ⟨mark, digit, rest, rfl, hdigit, number_of_basedDigit? pending rest hdigit⟩

/-- A blank is no digit in any base. -/
private theorem digit_of_isBlank {mark : Char} {digit : Char → Bool}
    (hmark : basedDigit? mark = some digit) {c : Char} (h : isBlank c = true) :
    digit c = false := by
  have key : isHexDigit c = false ∧ isBinDigit c = false := by
    rcases isBlank_iff.mp h with rfl | rfl | rfl | rfl <;> decide
  rcases basedDigit?_cases hmark with ⟨-, rfl⟩ | ⟨-, rfl⟩
  · exact key.1
  · exact key.2

/-- A number in a base is read again in front of a text that does not begin with one more of its
digits. -/
private theorem based_of_separatesLike {mark : Char} {digit : Char → Bool} (cs : List Char)
    {r : List Char} (hmark : basedDigit? mark = some digit)
    (h : SeparatesLike (based digit [] mark cs).rest r) :
    number [] ((based digit [] mark cs).text ++ r) = { based digit [] mark cs with rest := r } := by
  have hhead : headIs digit r = false :=
    (lookahead_headIs fun _ => digit_of_isBlank hmark).of_separatesLike
      (headIs_dropWhile digit cs) h
  have hdigits : ∀ c ∈ cs.takeWhile digit, digit c = true := fun _ => List.mem_takeWhile_imp
  have htext : (based digit [] mark cs).text ++ r = '0' :: mark :: (cs.takeWhile digit ++ r) := rfl
  rw [htext, number_of_basedDigit? [] _ hmark]
  simp only [based, takeWhile_append_of_headIs hdigits hhead,
    dropWhile_append_of_headIs hdigits hhead]

/-- A decimal number is read again in front of a text that ends it likewise. What follows is looked
at for a base mark, for a digit and for a point in front of a digit. -/
private theorem decimal_of_separatesLike {cs r : List Char} (hbased : startsBased cs = false)
    (hne : (decimal [] cs).text ≠ []) (h : SeparatesLike (decimal [] cs).rest r) :
    number [] ((decimal [] cs).text ++ r) = { decimal [] cs with rest := r } := by
  have happ := decimal_append [] cs
  have hbased' : startsBased ((decimal [] cs).text ++ r) = false := by
    rw [← happ] at hbased
    exact pairIs_append_of_separatesLike (fun _ => basedDigit?_of_isBlank) hne hbased h
  rw [number_of_not_startsBased [] hbased']
  have hwhole : ∀ c ∈ cs.takeWhile Char.isDigit, c.isDigit = true :=
    fun _ => List.mem_takeWhile_imp
  have hdigit : ∀ c, isBlank c = true → c.isDigit = false := fun c hc => (class_of_isBlank hc).2.1
  rcases hfraction : startsFraction (cs.dropWhile Char.isDigit) with _ | _
  · rw [decimal_of_not_startsFraction [] hfraction] at h ⊢
    -- `r` is looked at twice, for one more digit and for a point in front of a digit:
    have hhead : headIs Char.isDigit r = false :=
      (lookahead_headIs hdigit).of_separatesLike (headIs_dropWhile Char.isDigit cs) h
    have hnofraction : startsFraction r = false :=
      (lookahead_pairIs (by decide) hdigit).of_separatesLike hfraction h
    have hdrop := dropWhile_append_of_headIs hwhole hhead
    have htake := takeWhile_append_of_headIs hwhole hhead
    simp only [List.nil_append]
    rw [decimal_of_not_startsFraction [] (by rw [hdrop]; exact hnofraction), hdrop, htake]
    rfl
  · obtain ⟨d, rest, hdrop, hd⟩ := exists_of_pairIs hfraction
    rw [decimal_of_startsFraction [] hdrop hd] at h ⊢
    set digits := (d :: rest).takeWhile Char.isDigit with hdef
    have hhead : headIs Char.isDigit r = false :=
      (lookahead_headIs hdigit).of_separatesLike (headIs_dropWhile Char.isDigit (d :: rest)) h
    have hall : ∀ c ∈ digits, c.isDigit = true := fun _ => List.mem_takeWhile_imp
    have hfirst : headIs Char.isDigit (digits ++ r) = true := by
      rw [hdef, List.takeWhile_cons_of_pos hd]
      exact hd
    -- the point ends the whole part, whatever follows:
    have hpoint : headIs Char.isDigit ('.' :: (digits ++ r)) = false := rfl
    have htext : cs.takeWhile Char.isDigit ++ '.' :: digits ++ r =
        cs.takeWhile Char.isDigit ++ '.' :: (digits ++ r) := by simp
    rw [htext, decimal_of_startsFraction [] (dropWhile_append_of_headIs hwhole hpoint) hfirst,
      takeWhile_append_of_headIs hwhole hpoint, takeWhile_append_of_headIs hall hhead,
      dropWhile_append_of_headIs hall hhead]

/-- A number is read again in front of a text that ends it likewise, in another base or as a decimal
number. -/
private theorem number_of_separatesLike {c : Char} (rest : List Char) {r : List Char}
    (hc : c.isDigit = true) (h : SeparatesLike (number [] (c :: rest)).rest r) :
    number [] ((number [] (c :: rest)).text ++ r) = { number [] (c :: rest) with rest := r } := by
  rcases number_cases [] (c :: rest) with
    ⟨hbased, hnumber⟩ | ⟨mark, digit, cs, hcs, hdigit, hnumber⟩
  · rw [hnumber] at h ⊢
    exact decimal_of_separatesLike hbased (decimal_text_ne_nil [] rest hc) h
  · rw [hnumber] at h ⊢
    exact based_of_separatesLike cs hdigit h

/-! ### Words -/

/-- A member begins with a point and a character that starts a name. In this form it is a test of
the next two characters. -/
private theorem startsMember_eq (r : List Char) : startsMember r = pairIs '.' isNameStart r := by
  unfold startsMember
  split
  · simp [pairIs]
  · next hne =>
    match r with
    | [] => rfl
    | [c] => rfl
    | c :: d :: r =>
      have hc : c ≠ '.' := by
        rintro rfl
        exact hne d r rfl
      simp [pairIs, hc]

/-- A name has no other suffix than the two marks. -/
private theorem suffix_of_ne {c : Char} (r : List Char) (hquestion : c ≠ '?') (hbang : c ≠ '!') :
    suffix (c :: r) = [] := by
  rw [suffix]
  · exact fun _ h => hquestion (List.cons.inj h).1
  · exact fun _ h => hbang (List.cons.inj h).1
  · exact fun _ h => hbang (List.cons.inj h).1

theorem suffix_bang {r : List Char} (h : headIs (· == '=') r = false) :
    suffix ('!' :: r) = ['!'] := by
  cases r with
  | nil => rfl
  | cons d r =>
    have hd : d ≠ '=' := by simpa [headIs] using h
    rw [suffix]
    rintro t ht
    exact hd (List.cons.inj ht).1

theorem suffix_bang_eq {r : List Char} (h : headIs (· == '=') r = true) :
    suffix ('!' :: r) = [] := by
  cases r with
  | nil => cases h
  | cons d r =>
    obtain rfl : d = '=' := by simpa [headIs] using h
    rfl

private theorem eq_of_isBlank {c : Char} (hc : isBlank c = true) : (c == '=') = false := by
  have hne : c ≠ '=' := by
    rintro rfl
    exact absurd hc (by decide)
  simpa using hne

/-- The suffix of a name depends on what is in sight only: an exclamation mark asks for one more
character, and a question mark for none. -/
private theorem lookahead_suffix : Lookahead suffix [] := by
  refine lookahead_of_cases (fun r hr => ?_) fun c r _ => ?_
  · cases r with
    | nil => rfl
    | cons c r =>
      have hblank := hr c rfl
      refine suffix_of_ne r ?_ ?_ <;> rintro rfl <;> exact absurd hblank (by decide)
  · by_cases hquestion : c = '?'
    · subst hquestion
      rfl
    · by_cases hbang : c = '!'
      · subst hbang
        -- the character behind the mark decides, and a blank there is no equals sign:
        have hlook := headIs_takeWhile_take (fun _ => eq_of_isBlank) r
        rcases hhead : headIs (· == '=') r with _ | _
        · rw [suffix_bang hhead, suffix_bang (hlook.trans hhead)]
        · rw [suffix_bang_eq hhead, suffix_bang_eq (hlook.trans hhead)]
      · rw [suffix_of_ne _ hquestion hbang, suffix_of_ne _ hquestion hbang]

/-- What a suffix can be: none, a question mark, or an exclamation mark that is not part of `!=`. -/
theorem suffix_cases (tail : List Char) :
    suffix tail = [] ∨ (∃ t, tail = '?' :: t) ∨
      ∃ t, tail = '!' :: t ∧ headIs (· == '=') t = false := by
  fun_cases suffix tail with
  | case1 t => exact .inr (.inl ⟨t, rfl⟩)
  | case2 t => exact .inl rfl
  | case3 t ht =>
    refine .inr (.inr ⟨t, rfl, ?_⟩)
    cases t with
    | nil => rfl
    | cons d t =>
      have hd : d ≠ '=' := by
        rintro rfl
        exact ht t rfl
      simpa [headIs] using hd
  | case4 => exact .inl rfl

/-- The suffix of a name is found again, and no more of the name behind it, as what continues a name
would be in sight. -/
private theorem suffix_of_separatesLike {tail r : List Char}
    (htail : headIs isNameContinue tail = false)
    (h : SeparatesLike (tail.drop (suffix tail).length) r) :
    headIs isNameContinue (suffix tail ++ r) = false ∧ suffix (suffix tail ++ r) = suffix tail := by
  rcases suffix_cases tail with hnone | ⟨t, rfl⟩ | ⟨t, rfl, ht⟩
  · rw [hnone] at h ⊢
    exact ⟨(lookahead_headIs fun _ hc => (class_of_isBlank hc).1).of_separatesLike htail h,
      lookahead_suffix.of_separatesLike hnone h⟩
  · exact ⟨(by decide : isNameContinue '?' = false), rfl⟩
  · rw [suffix_bang ht] at h ⊢
    exact ⟨(by decide : isNameContinue '!' = false),
      suffix_bang ((lookahead_headIs fun _ => eq_of_isBlank).of_separatesLike ht h)⟩

/-- The run of a name is found again in front of a text that ends it likewise. A blank continues no
name and is no mark. -/
private theorem run_of_separatesLike {cs r : List Char} (h : SeparatesLike (afterRun cs) r) :
    run (run cs ++ r) = run cs ∧ afterRun (run cs ++ r) = r := by
  have hbody : ∀ c ∈ cs.takeWhile isNameContinue, isNameContinue c = true :=
    fun _ => List.mem_takeWhile_imp
  obtain ⟨hhead, hsuffix⟩ := suffix_of_separatesLike (headIs_dropWhile isNameContinue cs) h
  have htake := takeWhile_append_of_headIs hbody hhead
  have hdrop := dropWhile_append_of_headIs hbody hhead
  rw [← List.append_assoc] at htake hdrop
  change (run cs ++ r).takeWhile isNameContinue = _ at htake
  change (run cs ++ r).dropWhile isNameContinue = _ at hdrop
  constructor
  · rw [run, htake, hdrop, hsuffix, run]
  · rw [afterRun]
    simp only [hdrop, hsuffix]
    exact List.drop_left

/-- The run of a name begins with the character that started it. -/
theorem run_cons {c : Char} (rest : List Char) (h : isNameStart c = true) :
    ∃ t, run (c :: rest) = c :: t := by
  have hc := isNameStart_imp_isNameContinue h
  exact ⟨_, by rw [run, List.takeWhile_cons_of_pos hc, List.cons_append]⟩

private theorem isNameStart_of_isBlank {c : Char} (h : isBlank c = true) :
    isNameStart c = false := by
  by_contra hname
  simp [(class_of_isNameStart (by simpa using hname)).2.2.2.2] at h

/-- A word is read again in front of a text that ends it likewise, also where it joins a namespace
with a member. -/
private theorem word_of_separatesLike (names : Namespaces) (cs : List Char) {r : List Char}
    (h : SeparatesLike (word names [] cs).rest r) :
    word names [] ((word names [] cs).text ++ r) = { word names [] cs with rest := r } := by
  rcases hjoins : joins names [] cs with _ | _
  · rw [word_of_not_joins hjoins] at h ⊢
    obtain ⟨hrun, hafter⟩ := run_of_separatesLike h
    -- a namespace without a member has none now:
    have hapart : joins names [] (run cs ++ r) = false := by
      rw [joins, hrun, hafter]
      rcases hnames : names.contains (String.ofList ([] ++ run cs)) with _ | _
      · rfl
      · have hmember : pairIs '.' isNameStart (afterRun cs) = false := by
          rw [joins, hnames, Bool.true_and, startsMember_eq] at hjoins
          exact hjoins
        rw [Bool.true_and, startsMember_eq]
        exact (lookahead_pairIs (by decide) fun _ => isNameStart_of_isBlank).of_separatesLike
          hmember h
    rw [word_of_not_joins hapart, hrun, hafter]
  · rw [word_of_joins hjoins] at h ⊢
    obtain ⟨hnames, hmember⟩ := Bool.and_eq_true_iff.mp hjoins
    obtain ⟨d, rest, hafter, hd⟩ := exists_of_startsMember hmember
    rw [hafter, List.drop_succ_cons, List.drop_zero] at h ⊢
    obtain ⟨hrun', hafter'⟩ := run_of_separatesLike h
    obtain ⟨t, ht⟩ := run_cons rest hd
    -- behind the head stand the same two characters as before, a point and the first of the member:
    have hlike : SeparatesLike (afterRun cs) ('.' :: (run (d :: rest) ++ r)) := by
      right
      rw [hafter, ht]
      rfl
    obtain ⟨hrun, hafter⟩ := run_of_separatesLike hlike
    have hjoins' : joins names [] (run cs ++ '.' :: (run (d :: rest) ++ r)) = true := by
      rw [joins, hrun, hafter, hnames, ht]
      exact hd
    have htext : run cs ++ '.' :: run (d :: rest) ++ r =
        run cs ++ '.' :: (run (d :: rest) ++ r) := by simp
    rw [htext, word_of_joins hjoins', hrun, hafter, List.drop_succ_cons, List.drop_zero, hrun',
      hafter']

/-! ### Lexemes of every class -/

/-- A lexeme begins with the character that decided its class. -/
private theorem exists_text_scan (names : Namespaces) (c : Char) (rest : List Char) :
    ∃ tail, (scan names c rest).text = c :: tail := by
  have happ := scan_append names c rest
  rcases htext : (scan names c rest).text with _ | ⟨d, tail⟩
  · exact absurd htext (scan_text_ne_nil names c rest)
  · rw [htext, List.cons_append] at happ
    obtain ⟨rfl, -⟩ := List.cons.inj happ
    exact ⟨tail, rfl⟩

theorem flaws_symbol (s : Symbol) (pending cs : List Char) : (symbol s pending cs).flaws = [] := by
  fun_cases symbol s pending cs <;> rfl

theorem flaws_word (names : Namespaces) (pending cs : List Char) :
    (word names pending cs).flaws = [] := by
  unfold word
  split <;> rfl

theorem flaws_decimal (pending cs : List Char) : (decimal pending cs).flaws = [] := by
  unfold decimal
  split
  · split <;> rfl
  · rfl

/-- A number has no closing mark that could be missing. -/
theorem isOpen_number (pending cs : List Char) : (number pending cs).isOpen = false := by
  rcases number_cases pending cs with ⟨-, hnumber⟩ | ⟨mark, digit, rest, -, -, hnumber⟩
  · rw [hnumber, isOpen, flaws_decimal]
    rfl
  · rw [hnumber]
    simp only [isOpen, based]
    split <;> rfl

/-- A lexeme without its closing mark takes all that follows, so it is the last of its source. -/
theorem rest_of_isOpen {names : Namespaces} {c : Char} {rest : List Char}
    (h : (scan names c rest).isOpen = true) : (scan names c rest).rest = [] := by
  have hscans := scans_scan names rest c
  generalize scan names c rest = x at h hscans
  cases hscans with
  | symbol _ hs => simp [isOpen, flaws_symbol] at h
  | quotation =>
    rw [isOpen_quotation] at h
    exact rest_body_of_not_closed (by simpa using h)
  | command =>
    rcases hdrop : rest.dropWhile (· != backtick) with _ | ⟨d, t⟩
    · simp [command, hdrop]
    · simp [command_of_dropWhile hdrop, isOpen] at h
  | number _ hdigit => simp [isOpen_number] at h
  | word _ hname => simp [isOpen, flaws_word] at h
  | illegal => simp [illegal, isOpen, Flaw.isOpen] at h

/-- **A lexeme is read again in front of any text that ends it likewise**; one without its closing
mark, only at the end of the input. -/
theorem scan_of_separatesLike (names : Namespaces) (c : Char) (rest : List Char) {r : List Char}
    (h : SeparatesLike (scan names c rest).rest r)
    (hopen : (scan names c rest).isOpen = true → r = []) :
    ∃ tail, (scan names c rest).text = c :: tail ∧
      scan names c (tail ++ r) = { scan names c rest with rest := r } := by
  obtain ⟨tail, htail⟩ := exists_text_scan names c rest
  refine ⟨tail, htail, ?_⟩
  rcases ho : (scan names c rest).isOpen with _ | _
  · have hscans := scans_scan names rest c
    generalize scan names c rest = x at h ho htail hscans ⊢
    cases hscans with
    | @symbol c s _ hs =>
      have hagain := symbol_of_separatesLike s c rest h
      rw [htail] at hagain
      exact (scan_of_ofChar? names _ hs).trans hagain
    | quotation =>
      have hagain := quotation_of_not_isOpen r ho
      rw [htail] at hagain
      exact (scan_quote names _).trans hagain
    | command =>
      have hagain := command_of_not_isOpen r ho
      rw [htail] at hagain
      exact (scan_backtick names _).trans hagain
    | number _ hdigit =>
      have hagain := number_of_separatesLike rest hdigit h
      rw [htail] at hagain
      exact (scan_of_isDigit names _ hdigit).trans hagain
    | @word c _ hname =>
      have hagain := word_of_separatesLike names (c :: rest) h
      rw [htail] at hagain
      exact (scan_of_isNameStart names _ hname).trans hagain
    | illegal _ hstarts =>
      obtain ⟨-, rfl⟩ := List.cons.inj htail
      exact scan_of_not_starts names _ hstarts
  · -- the lexeme was all that there was, and it still is
    obtain rfl := hopen ho
    have hrest := rest_of_isOpen ho
    have happ := scan_append names c rest
    rw [hrest, htail, List.append_nil] at happ
    obtain ⟨-, rfl⟩ := List.cons.inj happ
    rw [List.append_nil, ← hrest]

/-- No gap starts at a lexeme in front of a text that ends it likewise. Only a slash has to be
watched, as what follows could make a comment of it. -/
theorem clear_append_of_separatesLike {s r r' : List Char} (hs : s ≠ [])
    (h : Trivia.Clear (s ++ r)) (hlike : SeparatesLike r r') : Trivia.Clear (s ++ r') := by
  match s with
  | [] => exact absurd rfl hs
  | [c] =>
    -- a slash is the only lexeme that the text behind could turn into a comment:
    obtain ⟨hblank, hslash⟩ := h
    refine ⟨hblank, fun hc d hd => ?_⟩
    rcases hblank' : isBlank d with _ | _
    · -- the character is in sight, so it stood there before
      obtain ⟨t, rfl⟩ := List.head?_eq_some_iff.mp hd
      rcases hlike with hblunt | hsight
      · simp [hblunt d rfl] at hblank'
      · rw [sight_cons t hblank'] at hsight
        exact hslash hc d (head?_of_sight_eq_cons hsight.symm)
    · constructor <;> rintro rfl <;> exact absurd hblank' (by decide)
  | c :: d :: s => exact h

end Lexeme

/-- **A gap and the lexeme behind it are found again** in front of a text that ends the lexeme
likewise. -/
theorem scan_gap_of_separatesLike (names : Namespaces) {cs : List Char} {c : Char}
    {rest r : List Char} (hrest : (Trivia.scan cs).rest = c :: rest)
    (h : SeparatesLike (Lexeme.scan names c rest).rest r)
    (hopen : (Lexeme.scan names c rest).isOpen = true → r = []) :
    let gap := Trivia.scan cs
    let x := Lexeme.scan names c rest
    ∃ tail, Trivia.scan (gap.text ++ (x.text ++ r)) = ⟨gap.text, c :: tail, none⟩ ∧
      Lexeme.scan names c tail = { x with rest := r } := by
  intro gap x
  obtain ⟨tail, htail, hscan⟩ := Lexeme.scan_of_separatesLike names c rest h hopen
  have hclear : Trivia.Clear (x.text ++ r) := by
    have hbefore := Trivia.clear_rest_scan cs
    rw [hrest, ← Lexeme.scan_append names c rest] at hbefore
    exact Lexeme.clear_append_of_separatesLike (Lexeme.scan_text_ne_nil names c rest) hbefore h
  have hgap := Trivia.scan_text_append (by rw [hrest]; exact List.cons_ne_nil c rest) hclear
  refine ⟨tail ++ r, ?_, hscan⟩
  rw [hgap, htail]
  rfl

end Lexis
