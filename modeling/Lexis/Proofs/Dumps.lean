import Lexis.Dump
import Lexis.Proofs.Quoting
import Lexis.Proofs.Spelling

/-!
# Dumps can be read back

A dump shows kind, literal, line and column of every token (`Token.entry`). Each of the two forms
has a reader here, `readText?` and `readJson?`, that takes a dump apart with its own means: it knows
the separators and the two ways to quote, and does not look at tokens. Both readers find all
entries, in order, so a dump says **all** about its entries (`Lossless`) and the two forms say the
same.

What keeps the parts of a dump apart is that numbers are followed by something that is no digit,
labels hold no blank, and quoted text ends with the first quotation mark that is not escaped. What
keeps lines apart is that no part holds a line feed.
-/

namespace Lexis

/-! ### Entries -/

namespace Dump

/-- What a dump shows of a token. -/
structure Entry where
  /-- What it is. -/
  kind : Kind
  /-- Its text. -/
  literal : String
  /-- The line it starts on. -/
  line : Nat
  /-- The column it starts at. -/
  column : Nat
deriving DecidableEq, Repr

end Dump

/-- The entry of a token. -/
def Token.entry (t : Token) : Dump.Entry :=
  ⟨t.kind, t.literal, t.span.line.toNat, t.span.column.toNat⟩

/-! ### Labels -/

/-- All symbols. -/
def Symbol.all : List Symbol :=
  [assign, plus, minus, bang, star, slash, percent, power, increment, decrement, plusAssign,
    minusAssign, starAssign, slashAssign, less, lessEqual, greater, greaterEqual, equal, notEqual,
    comma, semicolon, colon, period, leftParen, rightParen, leftBrace, rightBrace, leftBracket,
    rightBracket]

namespace Kind

/-- All kinds. -/
def all : List Kind :=
  [illegal, eof, ident, int, float, string, command] ++ Symbol.all.map symbol ++
    Keyword.all.map keyword

/-- The kind with the given label. -/
def ofLabel? (label : List Char) : Option Kind :=
  all.find? fun k => k.label.toList == label

/-- The list of kinds holds all of them. -/
theorem mem_all (k : Kind) : k ∈ all := by
  cases k with
  | symbol s => cases s <;> decide
  | keyword k => cases k <;> decide
  | _ => decide

/-- Each kind is found by its label, and no label holds a blank or a line feed. There are finitely
many kinds, so this is checked. -/
private theorem label_of_mem : ∀ k ∈ all,
    ofLabel? k.label.toList = some k ∧ ' ' ∉ k.label.toList ∧ '\n' ∉ k.label.toList := by
  decide +kernel

/-- **No two kinds have the same label.** -/
theorem ofLabel?_label (k : Kind) : ofLabel? k.label.toList = some k :=
  (label_of_mem k k.mem_all).1

private theorem space_not_mem_label (k : Kind) : ' ' ∉ k.label.toList :=
  (label_of_mem k k.mem_all).2.1

private theorem newline_not_mem_label (k : Kind) : '\n' ∉ k.label.toList :=
  (label_of_mem k k.mem_all).2.2

end Kind

/-! ### Lines -/

namespace Text

/-- A text without a line feed is the first line in front of one. -/
theorem lines_append_newline {l : List Char} (h : '\n' ∉ l) (r : List Char) :
    lines (l ++ '\n' :: r) = l :: lines r := by
  induction l with
  | nil => rfl
  | cons c l ih =>
    obtain ⟨hc, hl⟩ := not_or.mp (mt List.mem_cons.mpr h)
    rw [List.cons_append, lines, if_neg (Ne.symm hc), ih hl]

/-- A text of lines that end with a line feed each has these lines, if none of them holds
another. -/
theorem lines_flatMap {ls : List (List Char)} (h : ∀ l ∈ ls, '\n' ∉ l) :
    lines (ls.flatMap (· ++ ['\n'])) = ls := by
  induction ls with
  | nil => rfl
  | cons l ls ih =>
    obtain ⟨hl, hls⟩ := List.forall_mem_cons.mp h
    simp only [List.flatMap_cons, List.append_assoc, List.singleton_append]
    rw [lines_append_newline hl, ih hls]

end Text

/-- A list of parts that are not empty is no longer than the parts with separators. This gives
readers of such lists enough turns. -/
theorem length_le_length_intercalate {xs : List (List Char)} (h : ∀ x ∈ xs, x ≠ []) :
    xs.length ≤ ([','].intercalate xs).length := by
  induction xs with
  | nil => exact Nat.zero_le _
  | cons x xs ih =>
    obtain ⟨hx, hxs⟩ := List.forall_mem_cons.mp h
    have hpos := List.length_pos_iff.mpr hx
    cases xs with
    | nil => simpa [List.intercalate_singleton] using Nat.succ_le_of_lt hpos
    | cons y ys =>
      have ih := ih hxs
      rw [List.intercalate_cons_cons, List.length_append, List.length_append, List.length_cons]
      omega

/-- A list with separators begins with its first part. -/
theorem exists_intercalate_append (x : List Char) (xs : List (List Char)) (r : List Char) :
    ∃ more, [','].intercalate (x :: xs) ++ r = x ++ more := by
  cases xs with
  | nil => exact ⟨r, by rw [List.intercalate_singleton]⟩
  | cons y ys =>
    refine ⟨[','] ++ [','].intercalate (y :: ys) ++ r, ?_⟩
    rw [List.intercalate_cons_cons]
    simp only [List.append_assoc]

namespace Dump

/-! ### Numbers and fixed words -/

/-- Reads a number. -/
def number? (cs : List Char) : Option (Nat × List Char) :=
  (Json.digits? cs).map fun found => (Toml.numberIn 10 found.1, found.2)

/-- The digits of a number are read up to the first character that is none. -/
theorem digits?_toDigits (n : Nat) {c : Char} (hc : c.isDigit = false) (r : List Char) :
    Json.digits? (Nat.toDigits 10 n ++ c :: r) = some (Nat.toDigits 10 n, c :: r) := by
  have htake : (Nat.toDigits 10 n ++ c :: r).takeWhile Char.isDigit = Nat.toDigits 10 n := by
    rw [List.takeWhile_append_of_pos (isDigit_toDigits n)]
    simp [hc]
  have hdrop : (Nat.toDigits 10 n ++ c :: r).dropWhile Char.isDigit = c :: r := by
    rw [List.dropWhile_append_of_pos (isDigit_toDigits n)]
    simp [hc]
  simp [Json.digits?, htake, hdrop, Nat.toDigits_ne_nil]

/-- A number is read back from its digits, up to the first character that is none. -/
theorem number?_toDigits (n : Nat) {c : Char} (hc : c.isDigit = false) (r : List Char) :
    number? (Nat.toDigits 10 n ++ c :: r) = some (n, c :: r) := by
  rw [number?, digits?_toDigits n hc r, Option.map_some,
    numberIn_toDigits (by decide) (by decide)]

private theorem word?_append (w r : List Char) : Json.word? w (w ++ r) = some r := by
  simp [Json.word?]

/-! ### Dumps as text -/

/-- The characters of a token's line, without its line feed. -/
def lineOf (e : Entry) : List Char :=
  Nat.toDigits 10 e.line ++ ':' :: (Nat.toDigits 10 e.column ++ ' ' :: (e.kind.label.toList ++
    ' ' :: '"' :: (e.literal.toList.flatMap (Text.escapeChar (· == '"')) ++ ['"'])))

private theorem toList_textLine (t : Token) : (textLine t).toList = lineOf t.entry ++ ['\n'] := by
  simp [textLine, lineOf, Token.entry, Text.quote]

private theorem toList_text (tokens : List Token) :
    (text tokens).toList = ((tokens.map Token.entry).map lineOf).flatMap (· ++ ['\n']) := by
  simp [text, String.toList_join, List.flatMap_map, toList_textLine]

theorem newline_not_mem_toDigits (n : Nat) : '\n' ∉ Nat.toDigits 10 n := fun hmem =>
  absurd (mem_of_mem_toDigits (by decide) (by decide) _ hmem) (by decide)

/-- A text has no line feed if no character is written with one. -/
private theorem newline_not_mem_flatMap {write : Char → List Char} (h : ∀ c, '\n' ∉ write c)
    (s : List Char) : '\n' ∉ s.flatMap write := by
  rw [List.mem_flatMap]
  rintro ⟨c, -, hc⟩
  exact h c hc

/-- The line of an entry is one line: a line feed in its literal is written as an escape. -/
private theorem newline_not_mem_lineOf (e : Entry) : '\n' ∉ lineOf e := by
  have hliteral := newline_not_mem_flatMap Text.newline_not_mem_escapeChar e.literal.toList
  simp [lineOf, newline_not_mem_toDigits, e.kind.newline_not_mem_label, hliteral]

/-- Reads the line of a token. -/
def readLine? (cs : List Char) : Option Entry := do
  let (line, cs) ← number? cs
  let cs ← Json.word? [':'] cs
  let (column, cs) ← number? cs
  let cs ← Json.word? [' '] cs
  let kind ← Kind.ofLabel? (cs.takeWhile (· != ' '))
  let cs ← Json.word? [' '] (cs.dropWhile (· != ' '))
  let (literal, cs) ← Text.quoted? Text.unescape? cs
  if cs.isEmpty then some ⟨kind, literal, line, column⟩ else none

/-- An entry is read back from its line: place, label and literal are told apart by the blanks, of
which labels have none. -/
private theorem readLine?_lineOf (e : Entry) : readLine? (lineOf e) = some e := by
  have hlabel : ∀ c ∈ e.kind.label.toList, (c != ' ') = true := by
    intro c hc
    have hne : c ≠ ' ' := fun h => e.kind.space_not_mem_label (h ▸ hc)
    simpa using hne
  have hword (c : Char) (r : List Char) : Json.word? [c] (c :: r) = some r := word?_append [c] r
  have hliteral := Text.quoted?_append Text.undoes_escapeChar e.literal []
  simp [readLine?, lineOf, number?_toDigits, hword, List.takeWhile_append_of_pos hlabel,
    List.dropWhile_append_of_pos hlabel, Kind.ofLabel?_label, hliteral]

/-- Reads a dump. -/
def readText? (cs : List Char) : Option (List Entry) :=
  (Text.lines cs).mapM readLine?

/-- **A dump as text is read back**, as the entries of its tokens. It is cut at its line feeds, and
each line is read by itself. -/
theorem readText?_text (tokens : List Token) :
    readText? (text tokens).toList = some (tokens.map Token.entry) := by
  have hlines : ∀ l ∈ (tokens.map Token.entry).map lineOf, '\n' ∉ l := by
    intro l hl
    obtain ⟨e, -, rfl⟩ := List.mem_map.mp hl
    exact newline_not_mem_lineOf e
  have hread : readLine? ∘ lineOf = fun e => pure (id e) := funext readLine?_lineOf
  rw [readText?, toList_text, Text.lines_flatMap hlines, List.mapM_map, hread, List.mapM_pure,
    List.map_id]
  rfl

/-- A dump as text has a line feed for each token. -/
theorem count_newline_text (tokens : List Token) :
    (text tokens).toList.count '\n' = tokens.length := by
  rw [toList_text]
  induction tokens with
  | nil => rfl
  | cons t tokens ih =>
    have hline := List.count_eq_zero_of_not_mem (newline_not_mem_lineOf t.entry)
    rw [List.map_cons, List.map_cons, List.flatMap_cons, List.count_append, ih, List.count_append,
      hline, List.count_singleton_self, List.length_cons, Nat.zero_add, Nat.add_comm]

/-- What stands in front of the kind in a record. -/
def beforeKind : List Char := "\x7b\"kind\":".toList

/-- What stands between kind and literal. -/
def beforeLiteral : List Char := ",\"literal\":".toList

/-- What stands between literal and line. -/
def beforeLine : List Char := ",\"line\":".toList

/-- What stands between line and column. -/
def beforeColumn : List Char := ",\"column\":".toList

/-- The characters of a token's record. -/
def recordOf (e : Entry) : List Char :=
  beforeKind ++ '"' :: (e.kind.label.toList.flatMap Json.escapeChar ++ '"' ::
    (beforeLiteral ++ '"' :: (e.literal.toList.flatMap Json.escapeChar ++ '"' ::
      (beforeLine ++ (Nat.toDigits 10 e.line ++
        (beforeColumn ++ (Nat.toDigits 10 e.column ++ ['\x7d'])))))))

private theorem forall_ne_nil_map_recordOf (es : List Entry) : ∀ x ∈ es.map recordOf, x ≠ [] := by
  simp [recordOf]

/-- A record of a dump shows the entry of its token, and nothing else. -/
private theorem toList_jsonRecord (t : Token) : (jsonRecord t).toList = recordOf t.entry := by
  unfold jsonRecord
  simp only [String.toList_append, Json.quote, Nat.toString_eq_ofList_toDigits,
    String.toList_ofList, List.append_assoc, List.cons_append, List.nil_append]
  rfl

/-- Reads the record of a token. -/
def readRecord? (cs : List Char) : Option (Entry × List Char) := do
  let cs ← Json.word? beforeKind cs
  let (label, cs) ← Text.quoted? Json.unescape? cs
  let kind ← Kind.ofLabel? label.toList
  let cs ← Json.word? beforeLiteral cs
  let (literal, cs) ← Text.quoted? Json.unescape? cs
  let cs ← Json.word? beforeLine cs
  let (line, cs) ← number? cs
  let cs ← Json.word? beforeColumn cs
  let (column, cs) ← number? cs
  let cs ← Json.word? ['\x7d'] cs
  return (⟨kind, literal, line, column⟩, cs)

/-- An entry is read back from its record, whatever stands behind it, member by member in their
fixed order. -/
private theorem readRecord?_append (e : Entry) (r : List Char) :
    readRecord? (recordOf e ++ r) = some (e, r) := by
  have hline (r : List Char) : number? (Nat.toDigits 10 e.line ++ (beforeColumn ++ r)) =
      some (e.line, beforeColumn ++ r) := number?_toDigits e.line (by decide) _
  have hcolumn : number? (Nat.toDigits 10 e.column ++ '\x7d' :: r) = some (e.column, '\x7d' :: r) :=
    number?_toDigits e.column (by decide) r
  have hclose : Json.word? ['\x7d'] ('\x7d' :: r) = some r := word?_append ['\x7d'] r
  simp [readRecord?, recordOf, word?_append, Text.quoted?_append Json.undoes_escapeChar,
    Kind.ofLabel?_label, hline, hcolumn, hclose]

/-! ### Dumps as arrays -/

/-- A dump as array is the records of its entries with commas between them. -/
theorem toList_json (tokens : List Token) :
    (json tokens).toList =
      '[' :: ([','].intercalate ((tokens.map Token.entry).map recordOf) ++ [']']) := by
  have hrecords : (tokens.map jsonRecord).map String.toList =
      (tokens.map Token.entry).map recordOf := by
    rw [List.map_map, List.map_map]
    exact List.map_congr_left fun t _ => toList_jsonRecord t
  simp only [json, String.toList_append, String.toList_intercalate, hrecords]
  rfl

/-- Reads at most `limit` records, separated by commas, up to the end of their array. -/
def readRecords? : Nat → List Char → Option (List Entry × List Char)
  | 0, _ => none
  | limit + 1, cs => do
    match ← readRecord? cs with
    | (e, ',' :: rest) =>
      let (more, rest) ← readRecords? limit rest
      return (e :: more, rest)
    | (e, ']' :: rest) => return ([e], rest)
    | _ => none

/-- Records with commas between them are read back up to the closing bracket, by induction on the
records. -/
private theorem readRecords?_intercalate (e : Entry) (es : List Entry) (r : List Char) {limit : Nat}
    (hlimit : es.length < limit) :
    readRecords? limit ([','].intercalate ((e :: es).map recordOf) ++ ']' :: r) =
      some (e :: es, r) := by
  induction es generalizing e limit with
  | nil =>
    obtain ⟨limit, rfl⟩ : ∃ k, limit = k + 1 := ⟨limit - 1, by omega⟩
    simp [readRecords?, List.intercalate_singleton, readRecord?_append]
  | cons e' es ih =>
    obtain ⟨limit, rfl⟩ : ∃ k, limit = k + 1 := ⟨limit - 1, by omega⟩
    have hlimit : es.length < limit := by simpa using hlimit
    have ih := ih e' hlimit
    rw [List.map_cons] at ih
    simp [readRecords?, List.intercalate_cons_cons, readRecord?_append, ih]

/-- Reads a dump. -/
def readJson? (cs : List Char) : Option (List Entry) := do
  let cs ← Json.word? ['['] cs
  let (entries, rest) ←
    if cs.head? = some ']' then some ([], cs.tail) else readRecords? cs.length cs
  if rest.isEmpty then some entries else none

theorem head?_recordOf (e : Entry) : (recordOf e).head? = some '\x7b' := by
  have hword : beforeKind.head? = some '\x7b' := by decide
  rw [recordOf, List.head?_append, hword]
  rfl

/-- **A dump as array is read back**, as the entries of its tokens. The reader is given as many
turns as the dump has characters, of which each record has at least one. -/
theorem readJson?_json (tokens : List Token) :
    readJson? (json tokens).toList = some (tokens.map Token.entry) := by
  rw [toList_json]
  cases tokens.map Token.entry with
  | nil => rfl
  | cons e es =>
    have hhead : ([','].intercalate ((e :: es).map recordOf) ++ [']']).head? = some '\x7b' := by
      obtain ⟨more, hmore⟩ := exists_intercalate_append (recordOf e) (es.map recordOf) [']']
      rw [List.map_cons, hmore, List.head?_append, head?_recordOf]
      rfl
    have hlimit : es.length < ([','].intercalate ((e :: es).map recordOf) ++ [']']).length := by
      have hlength := length_le_length_intercalate (forall_ne_nil_map_recordOf (e :: es))
      simp only [List.length_append, List.length_map, List.length_cons] at hlength ⊢
      omega
    have hread := readRecords?_intercalate e es [] hlimit
    generalize [','].intercalate ((e :: es).map recordOf) ++ [']'] = cs at hhead hread
    have hopen : Json.word? ['['] ('[' :: cs) = some cs := word?_append ['['] cs
    simp [readJson?, hopen, hhead, hread]

/-- The record of an entry is written on one line. -/
private theorem newline_not_mem_recordOf (e : Entry) : '\n' ∉ recordOf e := by
  have hlabel := newline_not_mem_flatMap Json.newline_not_mem_escapeChar e.kind.label.toList
  have hliteral := newline_not_mem_flatMap Json.newline_not_mem_escapeChar e.literal.toList
  have hwords : ∀ w ∈ [beforeKind, beforeLiteral, beforeLine, beforeColumn], '\n' ∉ w := by decide
  simp only [List.forall_mem_cons] at hwords
  simp [recordOf, newline_not_mem_toDigits, hlabel, hliteral, hwords]

private theorem not_mem_intercalate {c sep : Char} (hsep : c ≠ sep) {xs : List (List Char)}
    (h : ∀ x ∈ xs, c ∉ x) : c ∉ [sep].intercalate xs := by
  induction xs with
  | nil => exact List.not_mem_nil
  | cons x xs ih =>
    obtain ⟨hx, hxs⟩ := List.forall_mem_cons.mp h
    cases xs with
    | nil => rwa [List.intercalate_singleton]
    | cons y ys =>
      rw [List.intercalate_cons_cons]
      simp [hx, hsep, ih hxs]

/-- A dump as array has no line feed, so that dumps can be told apart by lines. -/
theorem newline_not_mem_json (tokens : List Token) : '\n' ∉ (json tokens).toList := by
  have hrecords : '\n' ∉ [','].intercalate ((tokens.map Token.entry).map recordOf) := by
    refine not_mem_intercalate (by decide) fun x hx => ?_
    obtain ⟨e, -, rfl⟩ := List.mem_map.mp hx
    exact newline_not_mem_recordOf e
  rw [toList_json]
  simpa using hrecords

/-! ### Nothing is lost -/

/-- A form of dumps loses nothing: its reader finds all entries, so that dumps are alike only where
their entries are. -/
structure Lossless (render : List Token → String) (read? : List Char → Option (List Entry)) :
    Prop where
  /-- The entries are read back. -/
  read : ∀ tokens, read? (render tokens).toList = some (tokens.map Token.entry)
  /-- Dumps are alike iff their entries are. -/
  alike : ∀ ts us, render ts = render us ↔ ts.map Token.entry = us.map Token.entry

/-- A form that can be read back and shows nothing but entries loses nothing. -/
private theorem Lossless.of_read {render : List Token → String}
    {read? : List Char → Option (List Entry)}
    (read : ∀ tokens, read? (render tokens).toList = some (tokens.map Token.entry))
    (shows : ∀ ts us, ts.map Token.entry = us.map Token.entry → render ts = render us) :
    Lossless render read? := by
  refine ⟨read, fun ts us => ⟨fun h => ?_, shows ts us⟩⟩
  have hread := read ts
  rw [h, read us] at hread
  exact (Option.some.inj hread).symm

/-- **Dumps as text lose nothing.** -/
theorem lossless_text : Lossless text readText? := by
  refine Lossless.of_read readText?_text fun ts us h => ?_
  rw [← String.toList_inj, toList_text, toList_text, h]

/-- **Dumps as arrays lose nothing.** -/
theorem lossless_json : Lossless json readJson? := by
  refine Lossless.of_read readJson?_json fun ts us h => ?_
  rw [← String.toList_inj, toList_json, toList_json, h]

end Dump

end Lexis
