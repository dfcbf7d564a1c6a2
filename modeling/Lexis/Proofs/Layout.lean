import Lexis.CharClass
import Lexis.Proofs.Numerals
import Lexis.Settings.Encode
import Lexis.Toml.Document
import Lexis.Toml.Writer

/-!
# Reading what is written

The reader of documents takes back what the writers of texts, numbers and lists put down. Texts are
plain here (`IsPlain`): nothing in them needs an escape, so they stand between quotation marks as
they are. Every statement leaves open what follows; where a value could run on, as a number could,
it says that a line feed comes next.
-/

namespace Lexis.Toml

open Lexis.CharClass

/-! ### Plain texts -/

/-- The character stands for itself between quotation marks. -/
def IsPlain (c : Char) : Prop :=
  0x20 ≤ c.toNat ∧ c.toNat ≠ 0x7F ∧ c ≠ '"' ∧ c ≠ '\\'

instance (c : Char) : Decidable (IsPlain c) :=
  inferInstanceAs (Decidable (_ ∧ _))

/-- The characters of names are plain, so namespaces are written without any escape. Within ASCII
this is decided one by one, and beyond it every character is plain. -/
theorem isPlain_of_isNameContinue {c : Char} (h : isNameContinue c = true) : IsPlain c := by
  have hascii : ∀ n < 128, isNameContinue (Char.ofNat n) = true → IsPlain (Char.ofNat n) := by
    decide
  by_cases hc : c.toNat < 128
  · have hplain := hascii c.toNat hc
    rw [Char.ofNat_toNat] at hplain
    exact hplain h
  · refine ⟨by omega, by omega, ?_, ?_⟩
    · rintro rfl
      exact absurd hc (by decide)
    · rintro rfl
      exact absurd hc (by decide)

theorem IsPlain.isVisible {c : Char} (h : IsPlain c) : isVisible c = true := by
  simp [Toml.isVisible, h.1, h.2.1]

theorem IsPlain.isControl {c : Char} (h : IsPlain c) : isControl c = false := by
  have hle := h.1
  have hne := h.2.1
  simp [Toml.isControl, hne]
  omega

private theorem IsPlain.ne {c d : Char} (h : IsPlain c) (hd : ¬ IsPlain d) : c ≠ d := by
  rintro rfl
  exact hd h

private theorem not_mem_of_plain {cs : List Char} (h : ∀ c ∈ cs, IsPlain c) {d : Char}
    (hd : ¬ IsPlain d) : d ∉ cs :=
  fun hmem => hd (h d hmem)

/-- A mark that does not occur has no run. -/
private theorem longestRun_of_not_mem {mark : Char} {cs : List Char} (h : mark ∉ cs) :
    longestRun mark cs = 0 := by
  induction cs with
  | nil => rfl
  | cons c cs ih =>
    obtain ⟨hc, hcs⟩ := not_or.mp (mt List.mem_cons.mpr h)
    simpa [longestRun, Ne.symm hc] using ih hcs

/-- Nothing in a plain text is escaped. -/
private theorem escape_of_plain {cs : List Char} (h : ∀ c ∈ cs, IsPlain c) :
    escape false 0 0 cs = cs := by
  induction cs with
  | nil => rfl
  | cons c cs ih =>
    obtain ⟨hc, hcs⟩ := List.forall_mem_cons.mp h
    rw [escape, if_neg (hc.ne (by decide)), if_neg (hc.ne (by decide)), if_neg (hc.ne (by decide)),
      if_neg (hc.ne (by decide)), if_neg (hc.ne (by decide)), if_neg (hc.ne (by decide)),
      if_neg (hc.ne (by decide)), hc.isControl, ih hcs]
    rfl

/-- A plain text is written as it is, between quotation marks. -/
private theorem writeText_of_plain {cs : List Char} (h : ∀ c ∈ cs, IsPlain c) :
    writeText cs = '"' :: (cs ++ ['"']) := by
  have hline : '\n' ∉ cs := not_mem_of_plain h (by decide)
  have hslash : '\\' ∉ cs := not_mem_of_plain h (by decide)
  have hquotes : longestRun '"' cs = 0 := longestRun_of_not_mem (not_mem_of_plain h (by decide))
  have hcontrols : cs.any isControl = false := by
    simpa using fun c hc => (h c hc).isControl
  simp [writeText, hline, hcontrols, hslash, hquotes, between, escape_of_plain h]

/-- A plain text is read up to the quotation mark behind it. -/
private theorem basicBody_of_plain {cs : List Char} (h : ∀ c ∈ cs, IsPlain c) (r : List Char) :
    basicBody (cs ++ '"' :: r) = some (cs, r) := by
  induction cs with
  | nil => rfl
  | cons c cs ih =>
    obtain ⟨hc, hcs⟩ := List.forall_mem_cons.mp h
    have hquote : c ≠ '"' := hc.ne (by decide)
    have hslash : c ≠ '\\' := hc.ne (by decide)
    rw [List.cons_append, basicBody, ih hcs]
    · simp [hc.isVisible, hslash, consTo]
    · exact hquote
    · exact fun _ _ _ _ _ h => absurd h hslash
    · exact fun _ _ _ _ _ _ _ _ _ h => absurd h hslash
    · exact fun _ _ h => absurd h hslash

/-- A plain text is read back, whatever stands behind its quotation mark. -/
private theorem text?_of_plain {cs : List Char} (hne : cs ≠ []) (h : ∀ c ∈ cs, IsPlain c)
    (r : List Char) : text? (writeText cs ++ r) = some (cs, r) := by
  have hbody := basicBody_of_plain h r
  obtain ⟨c, cs, rfl⟩ := List.exists_cons_of_ne_nil hne
  have hc : c ≠ '"' := (h c List.mem_cons_self).ne (by decide)
  rw [writeText_of_plain h]
  simp only [List.cons_append, List.append_assoc, List.nil_append] at hbody ⊢
  simp [text?, startsTriple, apostrophe, shortText?, hc, hbody]

/-- A plain text is read back as a value, at any depth. -/
private theorem value?_text (depth : Nat) {cs : List Char} (hne : cs ≠ []) (h : ∀ c ∈ cs, IsPlain c)
    (r : List Char) :
    value? depth (writeText cs ++ r) = some (.string (String.ofList cs), r) := by
  have htext := text?_of_plain hne h r
  rw [writeText_of_plain h] at htext ⊢
  simp only [List.cons_append, List.append_assoc, List.nil_append] at htext ⊢
  rw [value?]
  · rw [scalar?, if_pos (.inl rfl), htext, Option.map_some]
  all_goals simp

/-! ### Numbers -/

section Digits

variable {ds : List Char} (hds : ∀ d ∈ ds, d.isDigit = true) (r : List Char)
include hds

/-- No mark stands behind digits at the end of a line, be it of a moment, of a fraction or of an
exponent. -/
private theorem mark?_digits {mark : Char} (hdigit : mark.isDigit = false) (hmark : mark ≠ '\n') :
    mark? mark (ds ++ '\n' :: r) = none := by
  cases ds with
  | nil => simp [mark?, Ne.symm hmark]
  | cons d ds =>
    have hd : d ≠ mark := by
      rintro rfl
      rw [hds d List.mem_cons_self] at hdigit
      cases hdigit
    simp [mark?, hd]

omit hds in
/-- A field of digits ends among the digits, and leaves the others over. It cannot reach beyond the
line feed, which is no digit. -/
private theorem field?_digits {width low high : Nat} {found : Nat × List Char}
    (h : field? width low high (ds ++ '\n' :: r) = some found) :
    found.2 = ds.drop width ++ '\n' :: r := by
  simp only [field?] at h
  split_ifs at h with hfield hbounds
  obtain rfl := (Option.some.inj h).symm
  have hlength : width ≤ ds.length := by
    by_contra hlt
    have hmem : '\n' ∈ (ds ++ '\n' :: r).take width := by
      rw [List.take_append, List.mem_append]
      obtain ⟨k, hk⟩ : ∃ k, width - ds.length = k + 1 := ⟨width - ds.length - 1, by omega⟩
      exact .inr (by rw [hk, List.take_succ_cons]; exact List.mem_cons_self)
    have hfeed := List.all_eq_true.mp hfield.2 '\n' hmem
    cases hfeed
  rw [List.drop_append_of_le_length hlength]

/-- Behind a field of digits there is no mark, only more digits or the end of the line. -/
private theorem mark?_field?_digits {width low high : Nat} {mark : Char}
    (hdigit : mark.isDigit = false) (hmark : mark ≠ '\n') {found : Nat × List Char}
    (h : field? width low high (ds ++ '\n' :: r) = some found) : mark? mark found.2 = none := by
  rw [field?_digits r h]
  exact mark?_digits (fun d hd => hds d (List.mem_of_mem_drop hd)) r hdigit hmark

/-- Digits alone are no point in time: a date and a time both need a mark behind their first
field. -/
private theorem moment?_digits : moment? (ds ++ '\n' :: r) = none := by
  have hdate : date? (ds ++ '\n' :: r) = none := by
    unfold date?
    cases h : field? 4 0 9999 (ds ++ '\n' :: r) with
    | none => rfl
    | some found =>
      have hmark : mark? '-' found.2 = none :=
        mark?_field?_digits hds r (by decide) (by decide) h
      simp [hmark]
  have htime : time? (ds ++ '\n' :: r) = none := by
    unfold time?
    cases h : field? 2 0 23 (ds ++ '\n' :: r) with
    | none => rfl
    | some found =>
      have hmark : mark? ':' found.2 = none :=
        mark?_field?_digits hds r (by decide) (by decide) h
      simp [hmark]
  rw [moment?, hdate, htime]

/-- All digits up to the end of the line are read. -/
private theorem moreDigits_digits :
    moreDigits Char.isDigit (ds ++ '\n' :: r) = (ds, '\n' :: r) := by
  induction ds with
  | nil => rfl
  | cons d ds ih =>
    obtain ⟨hd, hds⟩ := List.forall_mem_cons.mp hds
    have hne : d ≠ '_' := by
      rintro rfl
      cases hd
    rw [List.cons_append, moreDigits]
    · simp [hd, ih hds]
    · exact fun _ _ h => absurd h hne

end Digits

section Number

private theorem sign_toDigits (n : Nat) (r : List Char) :
    sign (Nat.toDigits 10 n ++ '\n' :: r) = (false, Nat.toDigits 10 n ++ '\n' :: r) := by
  obtain ⟨d, ds, hds, -, hne⟩ := exists_digit_cons n
  simp [hds, sign, hne '-' rfl, hne '+' rfl]

variable {n : Nat} (hpos : 0 < n) (r : List Char)
include hpos

/-- The digits of a positive number are decimal digits of the format, which must not begin with
zero. -/
private theorem decimalDigits?_toDigits :
    decimalDigits? (Nat.toDigits 10 n ++ '\n' :: r) = some (Nat.toDigits 10 n, '\n' :: r) := by
  have hdigits := isDigit_toDigits n
  obtain ⟨d, ds, hds, hzero, -⟩ := exists_digit_cons n
  rw [hds] at hdigits ⊢
  obtain ⟨hd, hds⟩ := List.forall_mem_cons.mp hdigits
  rw [List.cons_append, decimalDigits?]
  · simp [digits?, hd, moreDigits_digits hds r]
  · simp [hzero hpos]

/-- Digits alone are no floating-point number, which needs a point or an exponent. -/
private theorem float?_toDigits : float? (Nat.toDigits 10 n ++ '\n' :: r) = none := by
  have hdecimal : decimalFloat? (Nat.toDigits 10 n ++ '\n' :: r) = none := by
    simp [decimalFloat?, sign_toDigits, decimalDigits?_toDigits hpos, fraction?, exponent?]
  have hspecial : specialFloat? (Nat.toDigits 10 n ++ '\n' :: r) = none := by
    obtain ⟨d, ds, hds, -, hne⟩ := exists_digit_cons n
    rw [specialFloat?, sign_toDigits, hds]
    simp [word?, (hne 'i' rfl).symm, (hne 'n' rfl).symm]
  rw [float?, hdecimal, hspecial]
  rfl

/-- A positive number is read back as an integer, if it is one of the format. Its first digit is not
zero, so no other base is meant. -/
private theorem integer?_toDigits (hn : n < integerEnd) :
    integer? (Nat.toDigits 10 n ++ '\n' :: r) = some ((n : Int), '\n' :: r) := by
  have hdecimal : decimal? (Nat.toDigits 10 n ++ '\n' :: r) = some ((n : Int), '\n' :: r) := by
    simp [decimal?, sign_toDigits, decimalDigits?_toDigits hpos,
      numberIn_toDigits (b := 10) (by decide) (by decide), hn]
  obtain ⟨d, ds, hds, hzero, -⟩ := exists_digit_cons n
  rw [hds, List.cons_append] at hdecimal ⊢
  rw [integer?]
  · exact hdecimal
  all_goals simp [hzero hpos]

/-- **A number is read back**, after the forms that are tried before integers have failed on its
digits. -/
theorem value?_toDigits (hn : n < integerEnd) (depth : Nat) :
    value? depth (Nat.toDigits 10 n ++ '\n' :: r) = some (.integer n, '\n' :: r) := by
  have hnumeric : numeric? (Nat.toDigits 10 n ++ '\n' :: r) = some (.integer n, '\n' :: r) := by
    rw [numeric?, moment?_digits (isDigit_toDigits n), float?_toDigits hpos,
      integer?_toDigits hpos r hn]
    rfl
  obtain ⟨d, ds, hds, -, hne⟩ := exists_digit_cons n
  rw [hds, List.cons_append] at hnumeric ⊢
  rw [value?]
  · simp only [scalar?, hne '"' rfl, hne apostrophe rfl, hne 't' rfl, hne 'f' rfl, or_self,
      if_false, hnumeric]
  all_goals simp [hne '[' rfl, hne '\x7b' rfl]

end Number

/-! ### Lists -/

/-- Texts that are not empty and plain. -/
def Plain (texts : List String) : Prop :=
  ∀ s ∈ texts, s.toList ≠ [] ∧ ∀ c ∈ s.toList, IsPlain c

/-- An item on a line of its own, as it stands in a list. -/
def itemLine (s : String) : List Char :=
  [' ', ' ', ' ', ' '] ++ writeText s.toList ++ [',', '\n']

/-- A list has at most as many items as its lines have characters, so there is room to read them
all. -/
private theorem length_le_length_lines (texts : List String) :
    texts.length ≤ (texts.flatMap itemLine).length := by
  induction texts with
  | nil => exact Nat.le_refl 0
  | cons s texts ih =>
    simp only [List.flatMap_cons, List.length_append, List.length_cons, itemLine]
    omega

section Lists

variable {texts : List String} (h : Plain texts) (depth : Nat) (r : List Char)
include h

private theorem value?_member {s : String} (hs : s ∈ texts) :
    value? depth (writeText s.toList ++ r) = some (.string s, r) := by
  obtain ⟨hne, hplain⟩ := h s hs
  rw [value?_text depth hne hplain r, String.ofList_toList]

private theorem dropFiller?_member {s : String} (hs : s ∈ texts) :
    dropFiller? false (writeText s.toList ++ r) = some (writeText s.toList ++ r) := by
  rw [writeText_of_plain (h s hs).2]
  rfl

/-- The items of a list with a line for each of them are read back, by induction on the list. -/
private theorem items?_lines {limit : Nat} (hlimit : texts.length < limit) :
    items? (value? depth) limit ('\n' :: (texts.flatMap itemLine ++ ']' :: r)) =
      some (texts.map .string, r) := by
  induction texts generalizing limit with
  | nil =>
    obtain ⟨limit, rfl⟩ : ∃ k, limit = k + 1 := ⟨limit - 1, by omega⟩
    rfl
  | cons s texts ih =>
    obtain ⟨limit, rfl⟩ : ∃ k, limit = k + 1 := ⟨limit - 1, by omega⟩
    have hlimit : texts.length < limit := by simpa using hlimit
    have ih := ih (fun t ht => h t (List.mem_cons_of_mem s ht)) hlimit
    have hs : s ∈ s :: texts := List.mem_cons_self
    let rest := ',' :: '\n' :: (texts.flatMap itemLine ++ ']' :: r)
    have hlines : '\n' :: ((s :: texts).flatMap itemLine ++ ']' :: r) =
        ['\n', ' ', ' ', ' ', ' '] ++ (writeText s.toList ++ rest) := by
      simp [itemLine, rest]
    have hfiller : dropFiller? false (['\n', ' ', ' ', ' ', ' '] ++ (writeText s.toList ++ rest)) =
        some (writeText s.toList ++ rest) := dropFiller?_member h rest hs
    have hvalue := value?_member h depth rest hs
    rw [hlines, items?, hfiller]
    rw [writeText_of_plain (h s hs).2] at hvalue ⊢
    simp only [List.cons_append, List.append_assoc, List.nil_append, rest] at hvalue ⊢
    simp [hvalue, dropFiller?, isBlank, ih]

/-- **A list of texts is read back**, in each of its three layouts: empty, with one member on the
same line, or with a line for each member. -/
theorem value?_list :
    value? (depth + 1) ((Settings.writeList texts).toList ++ r) =
      some (.array (texts.map .string), r) := by
  match texts, h with
  | [], _ => rfl
  | [s], h =>
    have hs : s ∈ [s] := List.mem_singleton_self s
    have hfiller := dropFiller?_member h (']' :: r) hs
    have hvalue := value?_member h depth (']' :: r) hs
    have hlist : (Settings.writeList [s]).toList ++ r =
        '[' :: (writeText s.toList ++ ']' :: r) := by
      simp [Settings.writeList, Settings.writeString]
    rw [hlist, value?, items?, hfiller]
    rw [writeText_of_plain (h s hs).2] at hvalue ⊢
    simp only [List.cons_append, List.append_assoc, List.nil_append] at hvalue ⊢
    simp [hvalue, dropFiller?, isBlank]
  | s :: t :: more, h =>
    have hlist : (Settings.writeList (s :: t :: more)).toList ++ r =
        '[' :: '\n' :: ((s :: t :: more).flatMap itemLine ++ ']' :: r) := by
      simp [Settings.writeList, Settings.writeString, itemLine, String.toList_join,
        List.flatMap_map]
      rfl
    have hlength := length_le_length_lines (s :: t :: more)
    rw [hlist, value?, items?_lines h depth r, Option.map_some]
    simp only [List.length_cons, List.length_append] at hlength ⊢
    omega

end Lists

/-! ### Values on a line -/

/-- The text stands for the value on a line, whatever lines follow. -/
structure Denotes (text : List Char) (value : Value) : Prop where
  /-- No blank stands in front. -/
  front : ∀ r, dropBlanks (text ++ r) = text ++ r
  /-- The value is read up to the end of the line. -/
  read : ∀ r, value? nesting (text ++ '\n' :: r) = some (value, '\n' :: r)

theorem denotes_boolean (b : Bool) :
    Denotes (if b then "true" else "false").toList (.boolean b) := by
  cases b <;> exact ⟨fun r => rfl, fun r => rfl⟩

/-- A positive number denotes itself, if the format can hold it. -/
theorem denotes_toDigits {n : Nat} (hpos : 0 < n) (hn : n < integerEnd) :
    Denotes (Nat.toDigits 10 n) (.integer n) := by
  refine ⟨fun r => ?_, fun r => value?_toDigits hpos r hn nesting⟩
  obtain ⟨d, ds, hds, -, hne⟩ := exists_digit_cons n
  simp [hds, dropBlanks, isBlank, hne ' ' rfl, hne '\t' rfl]

theorem denotes_text {s : String} (h : Plain [s]) : Denotes (writeText s.toList) (.string s) := by
  have hs : s ∈ [s] := List.mem_singleton_self s
  refine ⟨fun r => ?_, fun r => value?_member h nesting ('\n' :: r) hs⟩
  rw [writeText_of_plain (h s hs).2]
  rfl

/-- A list of plain texts denotes the array of these texts. -/
theorem denotes_list {texts : List String} (h : Plain texts) :
    Denotes (Settings.writeList texts).toList (.array (texts.map .string)) := by
  refine ⟨fun r => ?_, fun r => value?_list h 78 ('\n' :: r)⟩
  obtain ⟨cs, hcs⟩ : ∃ cs, (Settings.writeList texts).toList = '[' :: cs := by
    match texts with
    | [] => exact ⟨[']'], rfl⟩
    | [s] => exact ⟨_, by simp [Settings.writeList]; rfl⟩
    | s :: t :: more => exact ⟨_, by simp [Settings.writeList]; rfl⟩
  rw [hcs]
  rfl

/-! ### Lines -/

/-- The name can stand as a key without quotation marks. -/
def IsKey (name : String) : Prop :=
  name.toList ≠ [] ∧ name.toList.all isKeyChar = true

instance (name : String) : Decidable (IsKey name) :=
  inferInstanceAs (Decidable (_ ∧ _))

/-- A key begins with a character that can belong to one. -/
private theorem IsKey.exists_cons {name : String} (h : IsKey name) :
    ∃ c cs, name.toList = c :: cs ∧ ∀ d, isKeyChar d = false → c ≠ d := by
  obtain ⟨c, cs, hname⟩ := List.exists_cons_of_ne_nil h.1
  refine ⟨c, cs, hname, ?_⟩
  rintro d hd rfl
  rw [List.all_eq_true.mp h.2 c (by rw [hname]; exact List.mem_cons_self)] at hd
  cases hd

/-- A key ends with the first character that cannot belong to it, if no point follows that would add
another part. -/
private theorem key?_of_isKey {name : String} (h : IsKey name) (limit : Nat) {c d : Char}
    {r rest : List Char} (hc : isKeyChar c = false) (hrest : dropBlanks (c :: r) = d :: rest)
    (hd : d ≠ '.') : key? (limit + 1) (name.toList ++ c :: r) = some ([name], d :: rest) := by
  have hpart : keyPart? (name.toList ++ c :: r) = some (name, c :: r) := by
    have htake : (name.toList ++ c :: r).takeWhile isKeyChar = name.toList := by
      rw [List.takeWhile_append_of_pos (List.all_eq_true.mp h.2)]
      simp [hc]
    have hdrop : (name.toList ++ c :: r).dropWhile isKeyChar = c :: r := by
      rw [List.dropWhile_append_of_pos (List.all_eq_true.mp h.2)]
      simp [hc]
    have hshort : shortText? (name.toList ++ c :: r) = none := by
      obtain ⟨a, as, hname, hne⟩ := h.exists_cons
      simp [hname, shortText?, hne '"' (by decide), hne apostrophe (by decide)]
    simp only [keyPart?, hshort, htake, hdrop]
    simp [h.1]
  have hblanks : dropBlanks (name.toList ++ c :: r) = name.toList ++ c :: r := by
    obtain ⟨a, as, hname, hne⟩ := h.exists_cons
    simp [hname, dropBlanks, isBlank, hne ' ' (by decide), hne '\t' (by decide)]
  simp [key?, hblanks, hpart, hrest, hd]

namespace Document

/-- A line with a key and its value. -/
def pairLine (name : String) (text : List Char) : List Char :=
  name.toList ++ ' ' :: '=' :: ' ' :: (text ++ ['\n'])

/-- A line with the header of a table. -/
def headerLine (name : String) : List Char :=
  '[' :: (name.toList ++ [']', '\n'])

/-- A line with a name and a value adds the value to the document, if it denotes one. The value is
read up to the line feed, and no comment stands behind it. -/
private theorem line?_pairLine {name : String} (h : IsKey name) {text : List Char} {value : Value}
    (hvalue : Denotes text value) (doc : Document) (r : List Char) :
    line? doc (pairLine name text ++ r) = (doc.add [name] value).map fun doc => (doc, r) := by
  have hkey : key? nesting (name.toList ++ ' ' :: '=' :: ' ' :: (text ++ '\n' :: r)) =
      some ([name], '=' :: ' ' :: (text ++ '\n' :: r)) :=
    key?_of_isKey h 78 (by decide) rfl (by decide)
  have hspace : dropBlanks (' ' :: (text ++ '\n' :: r)) = text ++ '\n' :: r := hvalue.front _
  have hpair : pair? (value? nesting) (name.toList ++ ' ' :: '=' :: ' ' :: (text ++ '\n' :: r)) =
      some (([name], value), '\n' :: r) := by
    have hend : dropBlanks ('\n' :: r) = '\n' :: r := rfl
    simp [pair?, hkey, mark?, hspace, hvalue.read, hend]
  have hline : pairLine name text ++ r =
      name.toList ++ ' ' :: '=' :: ' ' :: (text ++ '\n' :: r) := by
    simp [pairLine]
  have hend : lineEnd? ('\n' :: r) = some r := rfl
  obtain ⟨c, cs, hname, hne⟩ := h.exists_cons
  rw [hname, List.cons_append] at hpair hline
  rw [hline, line?]
  · rw [hpair]
    simp only [Option.bind_eq_bind, Option.bind_some, hend]
    exact Option.map_eq_bind.symm
  all_goals
    simp [hne '[' (by decide), hne '\n' (by decide), hne '\r' (by decide), hne '#' (by decide)]

/-- A line with a name in brackets opens a table. With a single bracket it is not an item of an
array. -/
private theorem line?_headerLine {name : String} (h : IsKey name) (doc : Document) (r : List Char) :
    line? doc (headerLine name ++ r) = (doc.openTable [name]).map fun doc => (doc, r) := by
  have hkey : key? nesting (name.toList ++ ']' :: '\n' :: r) = some ([name], ']' :: '\n' :: r) :=
    key?_of_isKey h 78 (by decide) rfl (by decide)
  have hline : headerLine name ++ r = '[' :: (name.toList ++ ']' :: '\n' :: r) := by
    simp [headerLine]
  have hend : lineEnd? ('\n' :: r) = some r := rfl
  obtain ⟨c, cs, hname, hne⟩ := h.exists_cons
  rw [hname, List.cons_append] at hkey hline
  rw [hline, line?, hkey]
  · simp only [mark?, if_true, Option.bind_eq_bind, Option.bind_some, hend]
    exact Option.map_eq_bind.symm
  · simp [hne '[' (by decide)]

/-! ### Documents -/

private theorem lines?_step {doc next : Document} {cs rest : List Char} (hne : cs ≠ [])
    (hblanks : dropBlanks cs = cs) (h : line? doc cs = some (next, rest)) (limit : Nat) :
    lines? (limit + 1) doc cs = lines? limit next rest := by
  obtain ⟨c, cs, rfl⟩ := List.exists_cons_of_ne_nil hne
  simp [lines?, hblanks, h]

theorem lines?_newline (limit : Nat) (doc : Document) (r : List Char) :
    lines? (limit + 1) doc ('\n' :: r) = lines? limit doc r :=
  lines?_step (List.cons_ne_nil _ _) rfl rfl limit

/-- A line with a name and a value is read, and then the others. -/
theorem lines?_pairLine {name : String} (h : IsKey name) {text : List Char} {value : Value}
    (hvalue : Denotes text value) {doc next : Document} (hadd : doc.add [name] value = some next)
    (limit : Nat) (r : List Char) :
    lines? (limit + 1) doc (pairLine name text ++ r) = lines? limit next r := by
  have hline := line?_pairLine h hvalue doc r
  rw [hadd, Option.map_some] at hline
  obtain ⟨c, cs, hname, hne⟩ := h.exists_cons
  refine lines?_step ?_ ?_ hline limit
  · simp [pairLine]
  · simp [pairLine, hname, dropBlanks, isBlank, hne ' ' (by decide), hne '\t' (by decide)]

/-- A header is read, and then the lines of the table that it opens. -/
theorem lines?_headerLine {name : String} (h : IsKey name) {doc next : Document}
    (hopen : doc.openTable [name] = some next) (limit : Nat) (r : List Char) :
    lines? (limit + 1) doc (headerLine name ++ r) = lines? limit next r := by
  have hline := line?_headerLine h doc r
  rw [hopen, Option.map_some] at hline
  exact lines?_step (List.cons_ne_nil _ _) rfl hline limit

/-- A key that is new goes into the root table as long as no other is open. -/
theorem add_root {root : Entries} {name : String} (h : root.get? name = none) (value : Value) :
    add ⟨root, []⟩ [name] value = some ⟨root.put name value, []⟩ := by
  simp [add, within, addDotted, addKey, h]

/-- A key that is new goes into the table that is open. -/
theorem add_table {root inner : Entries} {table name : String}
    (htable : root.get? table = some (.table .header inner)) (h : inner.get? name = none)
    (value : Value) :
    add ⟨root, [table]⟩ [name] value =
      some ⟨root.put table (.table .header (inner.put name value)), [table]⟩ := by
  simp [add, within, addDotted, addKey, htable, h, Route.passes]

/-- A header with a name that is new adds an empty table to the root and opens it. -/
theorem openTable_root {root : Entries} {current : List String} {name : String}
    (h : root.get? name = none) :
    openTable ⟨root, current⟩ [name] = some ⟨root.put name (.table .header []), [name]⟩ := by
  simp [openTable, Toml.openTable, within, h]

end Document

end Lexis.Toml
