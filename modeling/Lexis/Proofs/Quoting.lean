import Lexis.Json.Grammar
import Lexis.Json.Quoted
import Lexis.Proofs.Numerals
import Lexis.Text.Quoted

/-!
# Quoted text can be read back

There are two ways to show a text between quotation marks, one for people (`Text.quote`) and one for
programs (`Json.quote`). They have different escapes and the same plan: a character stands for
itself, or a backslash announces an escape. `Text.quoted?` reads a quoted text by this plan, with
the reader of escapes as a parameter, and `Text.Undoes` is all that it asks of this reader
(`quoted?_append`).

Neither way lets a line feed through, and the second one writes nothing that the grammar of JSON
strings does not admit (`string?_flatMap`).
-/

namespace Lexis

namespace Text

/-! ### Reading between quotation marks -/

/-- Reads a text of fewer than `limit` characters up to its closing quotation mark; `escape?` reads
what follows a backslash. -/
def unquote? (escape? : List Char → Option (Char × List Char)) :
    Nat → List Char → Option (List Char × List Char)
  | 0, _ => none
  | _ + 1, [] => none
  | limit + 1, c :: rest =>
    if c = '"' then some ([], rest)
    else do
      let (x, rest) ← if c = '\\' then escape? rest else some (c, rest)
      let (text, rest) ← unquote? escape? limit rest
      return (x :: text, rest)

/-- Reads a text between quotation marks. -/
def quoted? (escape? : List Char → Option (Char × List Char)) :
    List Char → Option (String × List Char)
  | '"' :: rest =>
    (unquote? escape? rest.length rest).map fun found => (String.ofList found.1, found.2)
  | _ => none

/-- The reader of escapes undoes a way to write characters: what is written is the character itself,
or a backslash and an escape that is read as the character. -/
def Undoes (escape? : List Char → Option (Char × List Char)) (write : Char → List Char) : Prop :=
  ∀ c, (write c = [c] ∧ c ≠ '"' ∧ c ≠ '\\') ∨
    ∃ w, write c = '\\' :: w ∧ ∀ r, escape? (w ++ r) = some (c, r)

section

variable {escape? : List Char → Option (Char × List Char)} {write : Char → List Char}

/-- A text is read up to the quotation mark behind it, character by character, if each of them is
read back. -/
private theorem unquote?_flatMap (h : Undoes escape? write) (s r : List Char) {limit : Nat}
    (hlimit : s.length < limit) :
    unquote? escape? limit (s.flatMap write ++ '"' :: r) = some (s, r) := by
  induction s generalizing limit with
  | nil =>
    obtain ⟨limit, rfl⟩ := Nat.exists_eq_add_of_lt hlimit
    rfl
  | cons c s ih =>
    obtain ⟨limit, rfl⟩ : ∃ k, limit = k + 1 := ⟨limit - 1, by omega⟩
    have hlimit : s.length < limit := by simpa using hlimit
    have ih := ih hlimit
    rw [List.flatMap_cons, List.append_assoc]
    rcases h c with ⟨hc, hquote, hslash⟩ | ⟨w, hw, hread⟩
    · simp [hc, unquote?, hquote, hslash, ih]
    · simp [hw, unquote?, hread, ih]

/-- No character is lost on the way: each is written by at least one. So there is room to read them
all. -/
private theorem length_le_length_flatMap (h : Undoes escape? write) (s : List Char) :
    s.length ≤ (s.flatMap write).length := by
  induction s with
  | nil => exact Nat.le_refl 0
  | cons c s ih =>
    have hpos : 0 < (write c).length := by
      rcases h c with ⟨hc, -, -⟩ | ⟨w, hw, -⟩
      · simp [hc]
      · simp [hw]
    rw [List.flatMap_cons, List.length_append, List.length_cons]
    omega

/-- **A quoted text is read back**, whatever follows it, as soon as the reader of escapes undoes the
writer of characters. -/
theorem quoted?_append (h : Undoes escape? write) (s : String) (r : List Char) :
    quoted? escape? ('"' :: (s.toList.flatMap write ++ '"' :: r)) = some (s, r) := by
  have hlength := length_le_length_flatMap h s.toList
  have hlimit : s.toList.length < (s.toList.flatMap write ++ '"' :: r).length := by
    rw [List.length_append, List.length_cons]
    omega
  rw [quoted?, unquote?_flatMap h s.toList r hlimit, Option.map_some, String.ofList_toList]

end

/-! ### Escapes for people -/

/-- What a single character stands for behind a backslash. -/
def short? (c : Char) : Option Char :=
  if c = '0' then some '\x00'
  else if c = 't' then some '\t'
  else if c = 'r' then some '\r'
  else if c = 'n' then some '\n'
  else if c = '\\' ∨ c = '"' then some c
  else none

/-- Reads a code point between braces. -/
def braced? : List Char → Option (Char × List Char)
  | '\x7b' :: cs =>
    match cs.dropWhile (· != '\x7d') with
    | [] => none
    | _ :: rest =>
      (hexNumber? (cs.takeWhile (· != '\x7d'))).map fun n => (Char.ofNat n, rest)
  | _ => none

/-- Reads an escape behind its backslash. -/
def unescape? : List Char → Option (Char × List Char)
  | [] => none
  | c :: cs => if c = 'u' then braced? cs else (short? c).map fun x => (x, cs)

/-- No hexadecimal digit is a brace, so the brace ends the digits. -/
private theorem ne_brace_of_mem_hexDigits {n : Nat} : ∀ c ∈ hexDigits n, (c != '\x7d') = true := by
  intro c hc
  have hdigit := mem_of_mem_toDigits (by decide) (by decide) c hc
  have hnot : ("0123456789abcdef".toList.all (· != '\x7d')) = true := by decide
  exact List.all_eq_true.mp hnot c hdigit

/-- A code point in hexadecimal is read back, up to the brace behind it, and it is that of a
character. -/
private theorem braced?_append (c : Char) (r : List Char) :
    braced? ('\x7b' :: (hexDigits c.toNat ++ '\x7d' :: r)) = some (c, r) := by
  have htake : (hexDigits c.toNat ++ '\x7d' :: r).takeWhile (· != '\x7d') = hexDigits c.toNat := by
    rw [List.takeWhile_append_of_pos ne_brace_of_mem_hexDigits]
    simp
  have hdrop : (hexDigits c.toNat ++ '\x7d' :: r).dropWhile (· != '\x7d') = '\x7d' :: r := by
    rw [List.dropWhile_append_of_pos ne_brace_of_mem_hexDigits]
    simp
  simp only [braced?, hdrop, htake]
  rw [hexDigits, hexNumber?_toDigits, Option.map_some, Char.ofNat_toNat]

/-- The characters with a short escape, and what stands for them behind the backslash. -/
def shortEscapes : List (Char × Char) :=
  [('\x00', '0'), ('\t', 't'), ('\r', 'r'), ('\n', 'n'), ('\\', '\\'), ('"', '"')]

private theorem escapeChar_of_mem :
    ∀ p ∈ shortEscapes, escapeChar (· == '"') p.1 = ['\\', p.2] := by
  decide

/-- A character has a short escape, is written by its code point, or stands for itself. In the last
case it is no mark and no line feed. -/
private theorem escapeChar_cases (c : Char) :
    (∃ w, (c, w) ∈ shortEscapes ∧ escapeChar (· == '"') c = ['\\', w]) ∨
    escapeChar (· == '"') c = '\\' :: 'u' :: '\x7b' :: (hexDigits c.toNat ++ ['\x7d']) ∨
    (c ≠ '"' ∧ c ≠ '\\' ∧ c ≠ '\n' ∧ escapeChar (· == '"') c = [c]) := by
  by_cases hmem : c ∈ shortEscapes.map Prod.fst
  · obtain ⟨p, hp, rfl⟩ := List.mem_map.mp hmem
    exact .inl ⟨p.2, hp, escapeChar_of_mem p hp⟩
  · simp only [shortEscapes, List.map_cons, List.map_nil, List.mem_cons, List.not_mem_nil, or_false,
      not_or] at hmem
    obtain ⟨hnul, htab, hreturn, hfeed, hslash, hquote⟩ := hmem
    rw [escapeChar, if_neg hnul, if_neg htab, if_neg hreturn, if_neg hfeed, if_neg hslash,
      if_neg (by simpa using hquote)]
    by_cases hcode : (isJoining c || !isPrintable c) = true
    · exact .inr (.inl (if_pos hcode))
    · exact .inr (.inr ⟨hquote, hslash, hfeed, if_neg hcode⟩)

/-- The short escapes are read back. None of them is taken for a code point or broken over a
line. -/
private theorem short?_of_mem :
    ∀ p ∈ shortEscapes, p.2 ≠ 'u' ∧ p.2 ≠ '\n' ∧ short? p.2 = some p.1 := by
  decide

/-- **The escapes for people are undone**: a short escape, a code point in braces, or the character
itself. -/
theorem undoes_escapeChar : Undoes unescape? (escapeChar (· == '"')) := by
  intro c
  obtain ⟨w, hmem, hw⟩ | hcode | ⟨hquote, hslash, -, hc⟩ := escapeChar_cases c
  · obtain ⟨hu, -, hread⟩ := short?_of_mem _ hmem
    exact .inr ⟨[w], hw, fun r => by simp [unescape?, hu, hread]⟩
  · refine .inr ⟨_, hcode, fun r => ?_⟩
    simpa [unescape?] using braced?_append c r
  · exact .inl ⟨hc, hquote, hslash⟩

/-- No character is written with a line feed, so a quoted text stays on its line. -/
theorem newline_not_mem_escapeChar (c : Char) : '\n' ∉ escapeChar (· == '"') c := by
  obtain ⟨w, hmem, hw⟩ | hcode | ⟨-, -, hfeed, hc⟩ := escapeChar_cases c
  · obtain ⟨-, hfeed, -⟩ := short?_of_mem _ hmem
    simp [hw, Ne.symm hfeed]
  · have hdigits : '\n' ∉ hexDigits c.toNat := fun hmem =>
      absurd (mem_of_mem_toDigits (by decide) (by decide) _ hmem) (by decide)
    simp [hcode, hdigits]
  · simp [hc, Ne.symm hfeed]

end Text

namespace Json

/-! ### Escapes for programs -/

/-- What a single character stands for behind a backslash. -/
def short? (c : Char) : Option Char :=
  if c = 'b' then some '\x08'
  else if c = 'f' then some '\x0c'
  else if c = 'n' then some '\n'
  else if c = 'r' then some '\r'
  else if c = 't' then some '\t'
  else if c = '\\' ∨ c = '"' then some c
  else none

/-- Reads a code point with four digits. -/
def code? : List Char → Option (Char × List Char)
  | a :: b :: c :: d :: cs => (Text.hexNumber? [a, b, c, d]).map fun n => (Char.ofNat n, cs)
  | _ => none

/-- Reads an escape behind its backslash. -/
def unescape? : List Char → Option (Char × List Char)
  | [] => none
  | c :: cs => if c = 'u' then code? cs else (short? c).map fun x => (x, cs)

/-- The characters with a short escape, and what stands for them behind the backslash. -/
def shortEscapes : List (Char × Char) :=
  [('"', '"'), ('\\', '\\'), ('\x08', 'b'), ('\x0c', 'f'), ('\n', 'n'), ('\r', 'r'), ('\t', 't')]

private theorem escapeChar_of_mem : ∀ p ∈ shortEscapes, escapeChar p.1 = ['\\', p.2] := by
  decide

/-- A character has a short escape, is a control character written by its code point, or stands for
itself. -/
private theorem escapeChar_cases (c : Char) :
    (∃ w, (c, w) ∈ shortEscapes ∧ escapeChar c = ['\\', w]) ∨
    (c.toNat < 0x20 ∧ escapeChar c = '\\' :: 'u' :: '0' :: '0' :: hexPair c.toNat) ∨
    (c ≠ '"' ∧ c ≠ '\\' ∧ 0x20 ≤ c.toNat ∧ escapeChar c = [c]) := by
  by_cases hmem : c ∈ shortEscapes.map Prod.fst
  · obtain ⟨p, hp, rfl⟩ := List.mem_map.mp hmem
    exact .inl ⟨p.2, hp, escapeChar_of_mem p hp⟩
  · simp only [shortEscapes, List.map_cons, List.map_nil, List.mem_cons, List.not_mem_nil, or_false,
      not_or] at hmem
    obtain ⟨hquote, hslash, hback, hform, hfeed, hreturn, htab⟩ := hmem
    rw [escapeChar, if_neg hquote, if_neg hslash, if_neg hback, if_neg hform, if_neg hfeed,
      if_neg hreturn, if_neg htab]
    by_cases hcode : c.toNat < 0x20
    · exact .inr (.inl ⟨hcode, if_pos hcode⟩)
    · exact .inr (.inr ⟨hquote, hslash, Nat.le_of_not_lt hcode, if_neg hcode⟩)

private theorem short?_of_mem : ∀ p ∈ shortEscapes,
    p.2 ≠ 'u' ∧ p.2 ≠ '\n' ∧ isEscape p.2 = true ∧ short? p.2 = some p.1 := by
  decide

/-- A control character is read back from its four digits, of which the first two are zero. -/
private theorem hexNumber?_hexPair :
    ∀ n < 0x20, Text.hexNumber? ('0' :: '0' :: hexPair n) = some n ∧ '\n' ∉ hexPair n := by
  decide

/-- **The escapes for programs are undone**: a short escape, a code point of four digits, or the
character itself. -/
theorem undoes_escapeChar : Text.Undoes unescape? escapeChar := by
  intro c
  obtain ⟨w, hmem, hw⟩ | ⟨hlt, hcode⟩ | ⟨hquote, hslash, -, hc⟩ := escapeChar_cases c
  · obtain ⟨hu, -, -, hread⟩ := short?_of_mem _ hmem
    exact .inr ⟨[w], hw, fun r => by simp [unescape?, hu, hread]⟩
  · refine .inr ⟨_, hcode, fun r => ?_⟩
    have hnumber := (hexNumber?_hexPair c.toNat hlt).1
    simp only [hexPair, List.cons_append, List.nil_append] at hnumber ⊢
    rw [unescape?, if_pos rfl, code?, hnumber, Option.map_some, Char.ofNat_toNat]
  · exact .inl ⟨hc, hquote, hslash⟩

/-- No character is written with a line feed here either, so an array stays on its line. -/
theorem newline_not_mem_escapeChar (c : Char) : '\n' ∉ escapeChar c := by
  obtain ⟨w, hmem, hw⟩ | ⟨hlt, hcode⟩ | ⟨-, -, hle, hc⟩ := escapeChar_cases c
  · obtain ⟨-, hfeed, -, -⟩ := short?_of_mem _ hmem
    simp [hw, Ne.symm hfeed]
  · simp [hcode, (hexNumber?_hexPair c.toNat hlt).2]
  · have hfeed : '\n' ≠ c := by
      rintro rfl
      exact absurd hle (by decide)
    simp [hc, hfeed]

/-! ### The grammar admits what is written -/

private theorem string?_escape {w : Char} (hu : w ≠ 'u') (h : isEscape w = true) (r : List Char) :
    string? ('\\' :: w :: r) = string? r := by
  conv => lhs; unfold string?
  simp [hu, h]

/-- The grammar admits a character that is written as it is: no control character, quotation mark or
backslash. -/
private theorem string?_self {c : Char} (hquote : c ≠ '"') (hslash : c ≠ '\\')
    (hle : 0x20 ≤ c.toNat) (r : List Char) : string? (c :: r) = string? r := by
  rw [string?]
  · simp [hslash, hle]
  · exact hquote
  · intro a b d e rest hc
    exact absurd hc hslash
  · intro d rest hc
    exact absurd hc hslash

/-- The grammar admits every character as it is written: by a short escape, by four digits, or as it
is. -/
private theorem string?_escapeChar (c : Char) (r : List Char) :
    string? (escapeChar c ++ r) = string? r := by
  obtain ⟨w, hmem, hw⟩ | ⟨hlt, hcode⟩ | ⟨hquote, hslash, hle, hc⟩ := escapeChar_cases c
  · obtain ⟨hu, -, hescape, -⟩ := short?_of_mem _ hmem
    rw [hw]
    exact string?_escape hu hescape r
  · -- the code of a control character is far below those that need a partner
    have hnumber := (hexNumber?_hexPair c.toNat hlt).1
    have htrailing : isTrailing c.toNat = false := by simp [isTrailing]; omega
    have hleading : isLeading c.toNat = false := by simp [isLeading]; omega
    rw [hcode]
    simp only [hexPair, List.cons_append, List.nil_append] at hnumber ⊢
    conv => lhs; unfold string?
    simp [hnumber, htrailing, hleading]
  · rw [hc]
    exact string?_self hquote hslash hle r

/-- **The grammar admits a quoted text** up to its closing quotation mark. -/
theorem string?_flatMap (s r : List Char) :
    string? (s.flatMap escapeChar ++ '"' :: r) = some r := by
  induction s with
  | nil => rfl
  | cons c s ih => rw [List.flatMap_cons, List.append_assoc, string?_escapeChar, ih]

end Json

end Lexis
