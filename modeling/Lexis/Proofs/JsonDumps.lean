import Lexis.Proofs.Dumps

/-!
# Dumps are well-formed JSON

A dump as array is one value of the grammar. The readers of the grammar are built from a reader of
items (`Json.items?`), so the argument is: what an item reader admits up to the mark behind it
(`Json.Admits`), it admits several times with commas between (`items?_intercalate`). This is used
twice, for the members of a record and for the records of the array. Numbers are those that fit a
word by far, so none of them is too large for the grammar.
-/

namespace Lexis

namespace Json

/-! ### Items -/

/-- The item reader admits the text, and leaves the mark behind it: a comma or the closing mark. -/
structure Admits (item : List Char → Option (List Char)) (close : Char) (x : List Char) : Prop where
  /-- No blank stands in front. -/
  front : ∀ r, dropBlanks (x ++ r) = x ++ r
  /-- The text is passed as a whole. -/
  read : ∀ c, c = ',' ∨ c = close → ∀ r, item (x ++ c :: r) = some (c :: r)

/-- What is admitted is not empty, since no blank stands in front of it. -/
private theorem Admits.ne_nil {item : List Char → Option (List Char)} {close : Char} {x : List Char}
    (h : Admits item close x) : x ≠ [] := by
  rintro rfl
  have hblank := h.front [' ']
  cases hblank

private theorem dropBlanks_of_ne {c : Char} (h : c ∉ [' ', '\n', '\t', '\r']) (r : List Char) :
    dropBlanks (c :: r) = c :: r := by
  simp only [List.mem_cons, List.not_mem_nil, or_false, not_or] at h
  simp [dropBlanks, h]

section

variable {item : List Char → Option (List Char)} {close : Char}

/-- **Items with commas between them are admitted** up to the closing mark. By induction on the
items; each of them is read up to the comma or the closing mark behind it. -/
theorem items?_intercalate (hcomma : close ≠ ',') (hclose : close ∉ [' ', '\n', '\t', '\r'])
    (x : List Char) (xs : List (List Char)) (h : ∀ y ∈ x :: xs, Admits item close y)
    (r : List Char) {limit : Nat} (hlimit : xs.length < limit) :
    items? item close limit ([','].intercalate (x :: xs) ++ close :: r) = some r := by
  induction xs generalizing x limit with
  | nil =>
    obtain ⟨limit, rfl⟩ : ∃ k, limit = k + 1 := ⟨limit - 1, by omega⟩
    obtain ⟨hfront, hread⟩ := h x List.mem_cons_self
    rw [List.intercalate_singleton, items?, hfront, hread close (.inr rfl)]
    simp [dropBlanks_of_ne hclose, hcomma]
  | cons y ys ih =>
    obtain ⟨limit, rfl⟩ : ∃ k, limit = k + 1 := ⟨limit - 1, by omega⟩
    obtain ⟨hfront, hread⟩ := h x List.mem_cons_self
    have ih := ih y (fun z hz => h z (List.mem_cons_of_mem x hz)) (by simpa using hlimit)
    rw [List.intercalate_cons_cons, List.append_assoc, List.append_assoc, List.singleton_append,
      items?, hfront, hread ',' (.inl rfl)]
    simp only [Option.bind_eq_bind, Option.bind_some]
    rw [dropBlanks_of_ne (by decide)]
    simpa using ih

end

/-! ### Numbers -/

/-- One more digit is kept, as long as the number fits a word. -/
private theorem withDigit?_digitChar {n d : Nat} (hd : d < 10) (h : 10 * n + d < wordEnd) :
    withDigit? n d.digitChar = some (10 * n + d) := by
  unfold withDigit?
  rw [Nat.toNat_digitChar_sub_48_of_lt_ten hd]
  exact if_pos h

/-- The digits of a number that fits a word are kept as this number: no digit has to be given up for
the exponent. -/
private theorem addWhole_toDigits {n : Nat} (hn : n < wordEnd) (more : List Char) :
    addWhole {} (Nat.toDigits 10 n ++ more) = addWhole ⟨n, 0⟩ more := by
  refine toDigits_induction (P := fun n ds => n < wordEnd → ∀ more,
    addWhole {} (ds ++ more) = addWhole ⟨n, 0⟩ more) (by decide) (fun d hd hlt more => ?_)
    (fun n d _ hd ih hlt more => ?_) n hn more
  · have hdigit := withDigit?_digitChar (n := 0) hd (by rwa [Nat.mul_zero, Nat.zero_add])
    rw [Nat.mul_zero, Nat.zero_add] at hdigit
    exact addWhole_cons hdigit more
  · have hlt' : n < wordEnd := Nat.lt_of_le_of_lt (by omega) hlt
    rw [List.append_assoc, ih hlt']
    exact addWhole_cons (withDigit?_digitChar hd hlt) more

/-- A number below 2^32 is far from the largest double, so it is never refused for its size. -/
private theorem isHuge_of_lt {n : Nat} (hn : n < Nat.pow 2 32) :
    (⟨n, 0⟩ : Magnitude).isHuge = false := by
  have hround : roundToDouble n = n := if_pos (Nat.lt_trans hn (by decide +kernel))
  have hone : roundToDouble (Nat.pow 10 0) = 1 := by decide +kernel
  have hbound : Nat.pow 2 32 ≤ Nat.pow 2 1024 - Nat.pow 2 970 := by decide +kernel
  have hnot : ¬ Nat.pow 2 1024 - Nat.pow 2 970 ≤ n * 1 := by
    rw [Nat.mul_one]
    exact Nat.not_le_of_lt (Nat.lt_of_lt_of_le hn hbound)
  unfold Magnitude.isHuge
  rw [hround, Int.toNat_zero, hone, decide_eq_false hnot]
  simp

/-- The digits of a number are the whole part of one: they begin with zero only if the number is
zero. -/
private theorem whole?_toDigits (n : Nat) {c : Char} (hc : c.isDigit = false) (r : List Char) :
    whole? (Nat.toDigits 10 n ++ c :: r) = some (Nat.toDigits 10 n, c :: r) := by
  rcases Nat.eq_zero_or_pos n with rfl | hpos
  · simp [whole?, hc]
  · have hdigits := Dump.digits?_toDigits n hc r
    obtain ⟨d, ds, hds, hzero, -⟩ := exists_digit_cons n
    rw [hds] at hdigits ⊢
    rw [List.cons_append, whole?]
    · exact hdigits
    · simp [hzero hpos]

/-- A number below 2^32 is passed, up to the mark behind it. It has no sign, no fraction and no
exponent, and it is far from being too large. -/
theorem number?_toDigits {n : Nat} (hn : n < Nat.pow 2 32) {c : Char} (hc : c = ',' ∨ c = '\x7d')
    (r : List Char) : number? (Nat.toDigits 10 n ++ c :: r) = some (c :: r) := by
  have hdigit : c.isDigit = false := by rcases hc with rfl | rfl <;> rfl
  have hwhole := whole?_toDigits n hdigit r
  have hfraction : fraction? (c :: r) = some ([], c :: r) := by rcases hc with rfl | rfl <;> rfl
  have hexponent : exponent? (c :: r) = some (0, c :: r) := by rcases hc with rfl | rfl <;> rfl
  have hword : n < wordEnd := Nat.lt_trans hn (by decide +kernel)
  have hmagnitude : addWhole {} (Nat.toDigits 10 n) = ⟨n, 0⟩ := by
    have happend := addWhole_toDigits hword []
    rwa [List.append_nil] at happend
  obtain ⟨d, ds, hds, -, hne⟩ := exists_digit_cons n
  rw [hds, List.cons_append] at hwhole ⊢
  rw [hds] at hmagnitude
  have hnone (m : Magnitude) : addFraction m [] = m := rfl
  simp [number?, hne '-' rfl, hwhole, hfraction, hexponent, hmagnitude, hnone, isHuge_of_lt hn]

/-! ### Values -/

private theorem value?_number {n : Nat} (hn : n < Nat.pow 2 32) (depth : Nat) {c : Char}
    (hc : c = ',' ∨ c = '\x7d') (r : List Char) :
    value? depth (Nat.toDigits 10 n ++ c :: r) = some (c :: r) := by
  have hnumber := number?_toDigits hn hc r
  obtain ⟨d, ds, hds, -, hne⟩ := exists_digit_cons n
  rw [hds, List.cons_append] at hnumber ⊢
  rw [value?]
  · exact hnumber
  all_goals
    simp [hne '[' rfl, hne '\x7b' rfl, hne '"' rfl, hne 't' rfl, hne 'f' rfl, hne 'n' rfl]

private theorem value?_quote (s : String) (depth : Nat) (r : List Char) :
    value? depth ('"' :: (s.toList.flatMap escapeChar ++ '"' :: r)) = some r := by
  rw [value?]
  exact string?_flatMap s.toList r

section

variable {depth : Nat} {x : List Char} {xs : List (List Char)}

/-- A sequence that is not empty is read as items, and there is room for all of them, since each
item has a character at least. -/
private theorem items?_inside {item : List Char → Option (List Char)} {close : Char}
    (hcomma : close ≠ ',') (hclose : close ∉ [' ', '\n', '\t', '\r']) (hx : x.head? ≠ some close)
    (h : ∀ y ∈ x :: xs, Admits item close y) (r : List Char) :
    let cs := [','].intercalate (x :: xs) ++ close :: r
    items? item close cs.length cs = some r ∧ dropBlanks cs = cs ∧ cs.head? ≠ some close := by
  intro cs
  have hlength := length_le_length_intercalate fun y hy => (h y hy).ne_nil
  have hlimit : xs.length < cs.length := by
    rw [List.length_cons] at hlength
    simp only [cs, List.length_append]
    omega
  obtain ⟨more, hmore⟩ : ∃ more, cs = x ++ more := exists_intercalate_append x xs (close :: r)
  have hfirst := h x List.mem_cons_self
  refine ⟨items?_intercalate hcomma hclose x xs h r hlimit, ?_, ?_⟩
  · rw [hmore, hfirst.front]
  · obtain ⟨c, front, rfl⟩ := List.exists_cons_of_ne_nil hfirst.ne_nil
    rw [hmore]
    exact hx

/-- Items with commas between them are an array. -/
private theorem value?_array (hx : x.head? ≠ some ']')
    (h : ∀ y ∈ x :: xs, Admits (value? depth) ']' y) (r : List Char) :
    value? (depth + 1) ('[' :: ([','].intercalate (x :: xs) ++ ']' :: r)) = some r := by
  obtain ⟨hitems, hblanks, hhead⟩ := items?_inside (by decide) (by decide) hx h r
  rw [value?, hblanks]
  split
  · next rest hrest => exact absurd (congrArg List.head? hrest) hhead
  · exact hitems

/-- Members with commas between them are an object. -/
private theorem value?_object (hx : x.head? ≠ some '\x7d')
    (h : ∀ y ∈ x :: xs, Admits (member? (value? depth)) '\x7d' y) (r : List Char) :
    value? (depth + 1) ('\x7b' :: ([','].intercalate (x :: xs) ++ '\x7d' :: r)) = some r := by
  obtain ⟨hitems, hblanks, hhead⟩ := items?_inside (by decide) (by decide) hx h r
  rw [value?, hblanks]
  split
  · next rest hrest => exact absurd (congrArg List.head? hrest) hhead
  · exact hitems

end

/-- A name with its value. -/
def member (name : List Char) (value : List Char) : List Char :=
  '"' :: (name ++ '"' :: ':' :: value)

/-- A name and a value are admitted as a member, if the value is admitted. -/
private theorem admits_member {value : List Char → Option (List Char)} {name text : List Char}
    (hname : ∀ r, string? (name ++ '"' :: r) = some r)
    (h : Admits value '\x7d' text) : Admits (member? value) '\x7d' (member name text) := by
  refine ⟨fun r => dropBlanks_of_ne (by decide) _, fun c hc r => ?_⟩
  have hfront := h.front (c :: r)
  simp [member, member?, hname, dropBlanks_of_ne, hfront, h.read c hc r]

private theorem admits_number {n : Nat} (hn : n < Nat.pow 2 32) (depth : Nat) :
    Admits (value? depth) '\x7d' (Nat.toDigits 10 n) := by
  refine ⟨fun r => ?_, fun c hc r => value?_number hn depth hc r⟩
  obtain ⟨d, ds, hds, -, hne⟩ := exists_digit_cons n
  rw [hds]
  refine dropBlanks_of_ne ?_ (ds ++ r)
  simp [hne ' ' rfl, hne '\n' rfl, hne '\t' rfl, hne '\r' rfl]

private theorem admits_quote (s : String) (depth : Nat) :
    Admits (value? depth) '\x7d' ('"' :: (s.toList.flatMap escapeChar ++ ['"'])) := by
  refine ⟨fun r => dropBlanks_of_ne (by decide) _, fun c _ r => ?_⟩
  simpa using value?_quote s depth (c :: r)

end Json

namespace Dump

open Json

/-- The members of a record. -/
def members (e : Entry) : List (List Char) :=
  [member ['k', 'i', 'n', 'd'] ('"' :: (e.kind.label.toList.flatMap escapeChar ++ ['"'])),
    member ['l', 'i', 't', 'e', 'r', 'a', 'l']
      ('"' :: (e.literal.toList.flatMap escapeChar ++ ['"'])),
    member ['l', 'i', 'n', 'e'] (Nat.toDigits 10 e.line),
    member ['c', 'o', 'l', 'u', 'm', 'n'] (Nat.toDigits 10 e.column)]

/-- A record is an object with four members: kind, literal, line and column. -/
private theorem recordOf_eq (e : Entry) :
    recordOf e = '\x7b' :: ([','].intercalate (members e) ++ ['\x7d']) := by
  have hkind : beforeKind = ['\x7b', '"', 'k', 'i', 'n', 'd', '"', ':'] := by decide
  have hliteral : beforeLiteral = [',', '"', 'l', 'i', 't', 'e', 'r', 'a', 'l', '"', ':'] := by
    decide
  have hline : beforeLine = [',', '"', 'l', 'i', 'n', 'e', '"', ':'] := by decide
  have hcolumn : beforeColumn = [',', '"', 'c', 'o', 'l', 'u', 'm', 'n', '"', ':'] := by decide
  simp [recordOf, members, member, List.intercalate_cons_cons, List.intercalate_singleton, hkind,
    hliteral, hline, hcolumn]

private theorem admits_members {e : Entry} (hline : e.line < Nat.pow 2 32)
    (hcolumn : e.column < Nat.pow 2 32) (depth : Nat) :
    ∀ x ∈ members e, Admits (member? (value? depth)) '\x7d' x := by
  simp only [members, List.forall_mem_cons, List.not_mem_nil, false_implies, implies_true, and_true]
  refine ⟨admits_member (fun r => rfl) (admits_quote _ depth),
    admits_member (fun r => rfl) (admits_quote _ depth),
    admits_member (fun r => rfl) (admits_number hline depth),
    admits_member (fun r => rfl) (admits_number hcolumn depth)⟩

/-- A record is admitted as an item of an array. -/
private theorem admits_recordOf {e : Entry} (hline : e.line < Nat.pow 2 32)
    (hcolumn : e.column < Nat.pow 2 32) (depth : Nat) :
    Admits (value? (depth + 1)) ']' (recordOf e) := by
  rw [recordOf_eq]
  refine ⟨fun r => dropBlanks_of_ne (by decide) _, fun c hc r => ?_⟩
  have hobject := value?_object (by simp [member]) (admits_members hline hcolumn depth) (c :: r)
  simpa [members] using hobject

/-- **A dump as array is well-formed JSON**, whatever the tokens are: texts are quoted, numbers are
words, and arrays and objects nest two deep. -/
theorem isWellFormed_json (tokens : List Token) : isWellFormed (json tokens) = true := by
  have hvalue : value? nesting (json tokens).toList = some [] := by
    rw [toList_json]
    cases htokens : tokens with
    | nil => rfl
    | cons t ts =>
      have hrecords : ∀ x ∈ ((t :: ts).map Token.entry).map recordOf,
          Admits (value? 126) ']' x := by
        intro x hx
        obtain ⟨e, he, rfl⟩ := List.mem_map.mp hx
        obtain ⟨u, -, rfl⟩ := List.mem_map.mp he
        exact admits_recordOf u.span.line.toNat_lt u.span.column.toNat_lt 125
      exact value?_array (by simp [head?_recordOf]) hrecords []
  have hblanks : dropBlanks (json tokens).toList = (json tokens).toList := by
    rw [toList_json]
    exact dropBlanks_of_ne (by decide) _
  rw [isWellFormed, hblanks, hvalue]
  rfl

end Dump

end Lexis
