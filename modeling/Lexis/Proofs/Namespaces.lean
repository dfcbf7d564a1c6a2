import Lexis.Proofs.Joining
import Lexis.Proofs.Prologue
import Lexis.Proofs.Separation
import Lexis.Settings.Basic
import Mathlib.Data.List.Sort

/-!
# Which namespaces matter

A namespace matters if some source is read differently because of it. The only words that are ever
looked up are those in front of a point, and these are **plain names with at most one mark behind
them** (`Lexeme.IsHead`): this is so for every word that is scanned (`Lexeme.isHead_run`), and each
of them is scanned somewhere (`Lexeme.run_of_isHead`). Sets of namespaces that agree on such words
cannot be told apart (`divide_congr`), whereas one more of them is seen at once, in front of a
member (`tokenize_member`).

The settings accept plain names only. They leave out the names with a mark, which would matter too,
and nothing else.
-/

namespace Lexis

open Lexis.CharClass

/-! ### Sets of names -/

namespace Namespaces

variable {a b : Namespaces} {name n : String}

theorem contains_iff : a.contains n = true ↔ n ∈ a.names :=
  List.contains_iff_mem

private theorem contains_insert_iff :
    (a.insert name).contains n = true ↔ n = name ∨ a.contains n = true := by
  rw [contains_iff, contains_iff, insert, mem_place]

/-- Names that are added one by one belong to the set, along with those that did before. -/
theorem contains_foldl_insert_iff (names : List String) :
    (names.foldl insert a).contains n = true ↔ n ∈ names ∨ a.contains n = true := by
  induction names generalizing a with
  | nil => simp
  | cons x names ih =>
    rw [List.foldl_cons, ih, contains_insert_iff, List.mem_cons]
    tauto

/-- The set of a list holds the names on the list, in whatever order and number they stand there. -/
theorem contains_ofList_iff {names : List String} :
    (ofList names).contains n = true ↔ n ∈ names := by
  rw [ofList, contains_foldl_insert_iff]
  simp [contains, empty]

/-- **A set is determined by its names**, since these are listed in increasing order. -/
theorem eq_of_contains_iff (h : ∀ n, a.contains n = true ↔ b.contains n = true) : a = b := by
  have hirrefl : Std.Irrefl (α := String) (· < ·) := ⟨String.lt_irrefl⟩
  have hasymm : Std.Asymm (α := String) (· < ·) := ⟨fun _ _ => String.lt_asymm⟩
  have hnames : a.names = b.names := by
    refine List.Pairwise.eq_of_mem_iff a.sorted b.sorted fun n => ?_
    rw [← contains_iff, ← contains_iff, h]
  cases a
  cases b
  cases hnames
  rfl

private theorem ofList_eq_ofList {xs ys : List String} (h : ∀ n, n ∈ xs ↔ n ∈ ys) :
    ofList xs = ofList ys := by
  refine eq_of_contains_iff fun n => ?_
  rw [contains_ofList_iff, contains_ofList_iff, h]

end Namespaces

/-! ### Words in front of a point -/

namespace Lexeme

/-- The text is a plain name, with at most one mark behind it. -/
def IsHead (w : List Char) : Prop :=
  ∃ m, isName m = true ∧ (w = m ∨ w = m ++ ['?'] ∨ w = m ++ ['!'])

/-- **Every word that is scanned is a head**: name characters, and one mark at most behind them. -/
theorem isHead_run {c : Char} (rest : List Char) (h : isNameStart c = true) :
    IsHead (run (c :: rest)) := by
  have hc := isNameStart_imp_isNameContinue h
  refine ⟨(c :: rest).takeWhile isNameContinue, ?_, ?_⟩
  · rw [List.takeWhile_cons_of_pos hc, isName, h, Bool.true_and, List.all_eq_true]
    exact fun _ => List.mem_takeWhile_imp
  · rw [run]
    rcases suffix_cases ((c :: rest).dropWhile isNameContinue) with hnone | ⟨t, ht⟩ | ⟨t, ht, hbang⟩
    · exact .inl (by rw [hnone, List.append_nil])
    · exact .inr (.inl (by rw [ht]; rfl))
    · exact .inr (.inr (by rw [ht, suffix_bang hbang]))

/-- A name is made of characters of names only. -/
theorem all_of_isName {m : List Char} (h : isName m = true) : ∀ c ∈ m, isNameContinue c = true := by
  cases m with
  | nil => cases h
  | cons c m =>
    obtain ⟨hstart, hall⟩ := Bool.and_eq_true_iff.mp h
    exact List.forall_mem_cons.mpr
      ⟨isNameStart_imp_isNameContinue hstart, List.all_eq_true.mp hall⟩

/-- A name is scanned up to where it ends, with the mark behind it. -/
private theorem run_of_isName {m : List Char} (h : isName m = true) {c : Char}
    (hc : isNameContinue c = false) (rest : List Char) :
    run (m ++ c :: rest) = m ++ suffix (c :: rest) := by
  have htail : headIs isNameContinue (c :: rest) = false := hc
  rw [run, takeWhile_append_of_headIs (all_of_isName h) htail,
    dropWhile_append_of_headIs (all_of_isName h) htail]

/-- **Every head is scanned**, in front of a point, with its mark and no further. -/
theorem run_of_isHead {w : List Char} (h : IsHead w) (rest : List Char) :
    run (w ++ '.' :: rest) = w := by
  obtain ⟨m, hm, rfl | rfl | rfl⟩ := h
  · rw [run_of_isName hm (by decide)]
    exact List.append_nil _
  · rw [List.append_assoc, List.singleton_append, run_of_isName hm (by decide)]
    rfl
  · rw [List.append_assoc, List.singleton_append, run_of_isName hm (by decide)]
    rfl

/-- Behind a head that is scanned in front of a point, this point is left over. -/
private theorem afterRun_of_isHead {w : List Char} (h : IsHead w) (rest : List Char) :
    afterRun (w ++ '.' :: rest) = '.' :: rest := by
  have happ := run_append (w ++ '.' :: rest)
  rw [run_of_isHead h] at happ
  exact List.append_cancel_left happ

/-- A head begins with a character that starts a name, which is why a point and a head make a
member. -/
theorem exists_of_isHead {w : List Char} (h : IsHead w) :
    ∃ c rest, w = c :: rest ∧ isNameStart c = true := by
  obtain ⟨m, hm, hw⟩ := h
  cases m with
  | nil => cases hm
  | cons c m =>
    have hstart := (Bool.and_eq_true_iff.mp hm).1
    obtain rfl | rfl | rfl := hw
    · exact ⟨c, m, rfl, hstart⟩
    · exact ⟨c, m ++ ['?'], rfl, hstart⟩
    · exact ⟨c, m ++ ['!'], rfl, hstart⟩

/-- Whether a text is a head can be found out by scanning it: it is one iff all of it is scanned in
front of a point. -/
private theorem isHead_iff {w : List Char} :
    IsHead w ↔ headIs isNameStart w = true ∧ run (w ++ ['.']) = w := by
  constructor
  · intro h
    obtain ⟨c, rest, rfl, hname⟩ := exists_of_isHead h
    exact ⟨hname, run_of_isHead h []⟩
  · rintro ⟨hname, hrun⟩
    cases w with
    | nil => cases hname
    | cons c rest =>
      rw [← hrun]
      exact isHead_run (rest ++ ['.']) hname

instance (w : List Char) : Decidable (IsHead w) :=
  decidable_of_iff _ isHead_iff.symm

end Lexeme

/-! ### Sets that agree on heads -/

section Agree

/-- The same heads belong to both sets. -/
def Namespaces.AgreeOnHeads (a b : Namespaces) : Prop :=
  ∀ w, Lexeme.IsHead w → a.contains (String.ofList w) = b.contains (String.ofList w)

variable {a b : Namespaces}

namespace Lexeme

/-- Sets that agree on heads scan every lexeme alike, as a set is asked about heads only. -/
private theorem scan_congr (h : a.AgreeOnHeads b) (c : Char) (rest : List Char) :
    scan a c rest = scan b c rest := by
  rcases hname : isNameStart c with _ | _
  · rw [scan_eq_of_not_isNameStart a rest hname, scan_eq_of_not_isNameStart b rest hname]
  · have hjoins : joins a [] (c :: rest) = joins b [] (c :: rest) := by
      rw [joins, joins, List.nil_append, h _ (isHead_run rest hname)]
    rw [scan_of_isNameStart a rest hname, scan_of_isNameStart b rest hname, word, word, hjoins]

end Lexeme

/-- **Namespaces that agree on heads divide every text alike**, by induction over the lexemes. -/
theorem divide_congr (h : a.AgreeOnHeads b) (cs : List Char) : divide a cs = divide b cs := by
  rcases hrest : (Trivia.scan cs).rest with _ | ⟨c, rest⟩
  · rw [divide_of_rest_nil a hrest, divide_of_rest_nil b hrest]
  · have hlt := length_rest_scan_lt b hrest
    rw [divide_of_rest_cons a hrest, divide_of_rest_cons b hrest, Lexeme.scan_congr h,
      divide_congr h (Lexeme.scan b c rest).rest]
termination_by cs.length

/-- Sources are read alike, too, with the same tokens and the same reports. -/
private theorem tokenize_congr (h : a.AgreeOnHeads b) (source : String) :
    (tokenize a source).tokens = (tokenize b source).tokens ∧
      (tokenize a source).diagnostics = (tokenize b source).diagnostics := by
  obtain ⟨htokens, hreports⟩ := tokenize_eq a source
  obtain ⟨htokens', hreports'⟩ := tokenize_eq b source
  rw [htokens, hreports, htokens', hreports', divide_congr h]
  exact ⟨rfl, rfl⟩

end Agree

/-! ### A head in front of a member -/

section Member

variable {n : String}

private theorem toList_member (n : String) : (n ++ ".x").toList = n.toList ++ ['.', 'x'] :=
  String.toList_append

/-- A source that begins with a name has no prologue, as neither way to open a source begins like
this. -/
private theorem plain_of_isNameStart {c : Char} (rest : List Char) (h : isNameStart c = true) :
    Trivia.Plain (c :: rest) := by
  constructor
  · intro hmark
    obtain rfl : c = Trivia.byteOrderMark := Option.some.inj hmark
    exact absurd h (by decide +kernel)
  · intro hshebang
    obtain ⟨more, hmore⟩ := Trivia.shebang_isPrefix_iff.mp hshebang
    obtain rfl : c = '#' := (List.cons.inj hmore).1
    exact absurd h (by decide +kernel)

/-- A head in front of a member is a word, and the tokens of what follows it come next. This holds
whether or not the two join. -/
private theorem tokens_member (names : Namespaces) (h : Lexeme.IsHead n.toList) :
    let x := Lexeme.word names [] (n.toList ++ ['.', 'x'])
    (tokenize names (n ++ ".x")).tokens =
      x.token .origin :: (divide names x.rest).tokens (Position.after x.text) := by
  obtain ⟨c, rest, hcons, hname⟩ := Lexeme.exists_of_isHead h
  have hsource : n ++ ".x" = String.ofList (c :: (rest ++ ['.', 'x'])) := by
    rw [← String.ofList_toList (s := n ++ ".x"), toList_member, hcons]
    rfl
  have hclear := Trivia.scan_of_clear (Trivia.clear_of_isNameStart (rest ++ ['.', 'x']) hname)
  rw [hsource, (tokenize_of_plain names (plain_of_isNameStart _ hname)).1,
    divide_of_rest_cons names (by rw [hclear]), hclear, Lexeme.scan_of_isNameStart names _ hname,
    hcons]
  rfl

/-- **A namespace is seen**: it takes the member behind it, and the whole source is one name. -/
theorem tokenize_member {names : Namespaces} (h : Lexeme.IsHead n.toList)
    (hnames : names.contains n = true) :
    (tokenize names (n ++ ".x")).tokens =
      [⟨.ident, n ++ ".x", ⟨0, Text.byteLength (n ++ ".x").toList, 1, 1⟩⟩,
        Token.eof (Span.point (Position.after (n ++ ".x").toList))] := by
  have hjoins : Lexeme.joins names [] (n.toList ++ ['.', 'x']) = true := by
    rw [Lexeme.joins, List.nil_append, Lexeme.run_of_isHead h, Lexeme.afterRun_of_isHead h,
      String.ofList_toList, hnames]
    decide
  have hmember : Lexeme.run ['x'] = ['x'] ∧ Lexeme.afterRun ['x'] = [] := by decide
  have hword : Lexeme.word names [] (n.toList ++ ['.', 'x']) =
      ⟨.ident, (n ++ ".x").toList, (n ++ ".x").toList, [], []⟩ := by
    rw [Lexeme.word_of_joins hjoins, Lexeme.run_of_isHead h, Lexeme.afterRun_of_isHead h,
      toList_member]
    simp only [List.drop_succ_cons, List.drop_zero, hmember.1, hmember.2, List.nil_append]
  rw [tokens_member names h, hword, divide_nil]
  have hspan : Span.between .origin (.after (n ++ ".x").toList) =
      ⟨0, Text.byteLength (n ++ ".x").toList, 1, 1⟩ := by
    rw [Span.between, Position.offset_after]
    rfl
  rw [← hspan, Lexeme.token, String.ofList_toList]
  rfl

/-- Without it the head stays alone, and the member is read as tokens of its own. -/
private theorem tokenize_not_member {names : Namespaces} (h : Lexeme.IsHead n.toList)
    (hnames : names.contains n = false) :
    ∃ t more, (tokenize names (n ++ ".x")).tokens = t :: more ∧ t.literal = n := by
  have hjoins : Lexeme.joins names [] (n.toList ++ ['.', 'x']) = false := by
    rw [Lexeme.joins, List.nil_append, Lexeme.run_of_isHead h, String.ofList_toList, hnames,
      Bool.false_and]
  refine ⟨_, _, tokens_member names h, ?_⟩
  rw [Lexeme.word_of_not_joins hjoins, Lexeme.run_of_isHead h]
  exact String.ofList_toList

end Member

/-! ### Names that matter -/

/-- Some source is read differently with the name than without it. -/
def Namespaces.Matters (names : Namespaces) (n : String) : Prop :=
  ∃ source, (tokenize (names.insert n) source).tokens ≠ (tokenize names source).tokens ∨
    (tokenize (names.insert n) source).diagnostics ≠ (tokenize names source).diagnostics

/-- A name that is no head can be added to any set without a difference. -/
private theorem tokenize_insert_of_not_isHead {n : String} (h : ¬ Lexeme.IsHead n.toList)
    (names : Namespaces) (source : String) :
    (tokenize (names.insert n) source).tokens = (tokenize names source).tokens ∧
      (tokenize (names.insert n) source).diagnostics = (tokenize names source).diagnostics := by
  refine tokenize_congr (fun w hw => ?_) source
  have hne : String.ofList w ≠ n := by
    rintro rfl
    rw [String.toList_ofList] at h
    exact h hw
  rw [Bool.eq_iff_iff, Namespaces.contains_insert_iff, or_iff_right hne]

/-- **The names that matter are the heads**: a head is seen in front of a member, where it joins or
does not, and any other name is never asked about. -/
theorem Namespaces.matters_iff {names : Namespaces} {n : String} (h : names.contains n = false) :
    names.Matters n ↔ Lexeme.IsHead n.toList := by
  constructor
  · rintro ⟨source, hsource⟩
    by_contra hhead
    obtain ⟨htokens, hreports⟩ := tokenize_insert_of_not_isHead hhead names source
    exact hsource.elim (absurd htokens) (absurd hreports)
  · intro hhead
    have hinsert : (names.insert n).contains n = true := contains_insert_iff.mpr (.inl rfl)
    obtain ⟨t, more, htokens, hliteral⟩ := tokenize_not_member hhead h
    refine ⟨n ++ ".x", .inl fun heq => ?_⟩
    rw [tokenize_member hhead hinsert, htokens] at heq
    -- the first token is the joined name on one side, and the head on the other
    obtain rfl := (List.cons.inj heq).1
    have hlength := congrArg String.length hliteral
    rw [String.length_append] at hlength
    have hx : ".x".length = 2 := by decide
    omega

/-! ### Names that the settings accept -/

namespace Settings

private theorem isHead_of_isNamespace {n : String} (h : isNamespace n = true) :
    Lexeme.IsHead n.toList :=
  ⟨n.toList, h, .inl rfl⟩

/-- Heads are the names that the settings accept, with at most one mark. -/
private theorem isHead_toList_iff {n : String} :
    Lexeme.IsHead n.toList ↔
      ∃ m, isNamespace m = true ∧ (n = m ∨ n = m ++ "?" ∨ n = m ++ "!") := by
  constructor
  · rintro ⟨m, hm, hn⟩
    have hof : n = String.ofList n.toList := String.ofList_toList.symm
    refine ⟨String.ofList m, by rwa [isNamespace, String.toList_ofList], ?_⟩
    rcases hn with hn | hn | hn <;> rw [hn] at hof
    · exact .inl hof
    · exact .inr (.inl (hof.trans String.ofList_append))
    · exact .inr (.inr (hof.trans String.ofList_append))
  · rintro ⟨m, hm, rfl | rfl | rfl⟩
    · exact ⟨_, hm, .inl rfl⟩
    · exact ⟨_, hm, .inr (.inl String.toList_append)⟩
    · exact ⟨_, hm, .inr (.inr String.toList_append)⟩

/-- **The settings accept the heads without a mark**, as no mark is a character that continues a
name. -/
theorem isNamespace_iff {n : String} :
    isNamespace n = true ↔ (∀ c ∈ n.toList, isNameSuffix c = false) ∧ Lexeme.IsHead n.toList := by
  -- no mark continues a name
  have hmarks : ∀ c, isNameContinue c = true → isNameSuffix c = false := by
    intro c hc
    rw [isNameSuffix, Bool.or_eq_false_iff, beq_eq_false_iff_ne, beq_eq_false_iff_ne]
    constructor
    · rintro rfl
      exact absurd hc (by decide)
    · rintro rfl
      exact absurd hc (by decide)
  constructor
  · intro h
    exact ⟨fun c hc => hmarks c (Lexeme.all_of_isName h c hc), isHead_of_isNamespace h⟩
  · rintro ⟨hplain, m, hm, hn | hn | hn⟩ <;> rw [hn] at hplain
    · rwa [isNamespace, hn]
    · exact absurd (hplain '?' (by simp)) (by decide)
    · exact absurd (hplain '!' (by simp)) (by decide)

/-- Settings are accepted as they are, iff there is a worker and each namespace is a plain name. -/
theorem validate_eq_ok_iff {s t : Settings} :
    s.validate = .ok t ↔ s = t ∧ s.jobs ≠ 0 ∧ ∀ n ∈ s.namespaces, isNamespace n = true := by
  have hfind : s.namespaces.find? (!isNamespace ·) = none ↔
      ∀ n ∈ s.namespaces, isNamespace n = true := by
    simp
  rw [← hfind, validate]
  split_ifs with hjobs
  · simp [hjobs]
  · cases s.namespaces.find? (!isNamespace ·) <;> simp [hjobs]

end Settings

/-- **The settings accept exactly the plain names that matter.** Two lists of the same names are
read alike. A name that is not in force matters iff it is a plain name, with at most one mark behind
it; settings are accepted iff there is a worker and each namespace matters and has no mark. Each
namespace that is accepted takes the member behind it into one name, whatever else is in force.
Names with a point, the empty name and names that start with a digit change nothing. -/
theorem namespaces_exact :
    (∀ xs ys : List String, (∀ n, n ∈ xs ↔ n ∈ ys) →
        ∀ source, tokenize (.ofList xs) source = tokenize (.ofList ys) source) ∧
      (∀ (names : Namespaces) (n : String), names.contains n = false →
        (names.Matters n ↔
          ∃ m, Settings.isNamespace m = true ∧ (n = m ∨ n = m ++ "?" ∨ n = m ++ "!"))) ∧
      (∀ s : Settings, s.validate = .ok s ↔
        s.jobs ≠ 0 ∧ ∀ n ∈ s.namespaces,
          (∀ c ∈ n.toList, isNameSuffix c = false) ∧ Namespaces.empty.Matters n) ∧
      (∀ s t : Settings, s.validate = .ok t → ∀ n ∈ t.namespaces,
        (∀ names : Namespaces, names.contains n = false → names.Matters n) ∧
          ∀ extra, (tokenize (t.namespacesWith extra) (n ++ ".x")).tokens =
            [⟨.ident, n ++ ".x", ⟨0, Text.byteLength (n ++ ".x").toList, 1, 1⟩⟩,
              Token.eof (Span.point (Position.after (n ++ ".x").toList))]) ∧
      ∀ n ∈ ["a.b", "", "1x"], ∀ (names : Namespaces) (source : String),
        (tokenize (names.insert n) source).tokens = (tokenize names source).tokens ∧
          (tokenize (names.insert n) source).diagnostics =
            (tokenize names source).diagnostics := by
  have hempty : ∀ n, Namespaces.empty.Matters n ↔ Lexeme.IsHead n.toList := by
    intro n
    exact Namespaces.matters_iff rfl
  refine ⟨fun xs ys h source => ?_, fun names n h => ?_, fun s => ?_, fun s t h n hn => ?_,
    fun n hn names source => ?_⟩
  · rw [Namespaces.ofList_eq_ofList h]
  · rw [Namespaces.matters_iff h, Settings.isHead_toList_iff]
  · rw [Settings.validate_eq_ok_iff]
    simp only [true_and, Settings.isNamespace_iff, hempty]
  · obtain ⟨rfl, -, hall⟩ := Settings.validate_eq_ok_iff.mp h
    have hhead := Settings.isHead_of_isNamespace (hall n hn)
    refine ⟨fun names hnames => (Namespaces.matters_iff hnames).mpr hhead, fun extra => ?_⟩
    exact tokenize_member hhead (Namespaces.contains_ofList_iff.mpr (List.mem_append_left _ hn))
  · have hnot : ∀ n ∈ ["a.b", "", "1x"], ¬ Lexeme.IsHead n.toList := by decide +kernel
    exact tokenize_insert_of_not_isHead (hnot n hn) names source

/-- A plain name is accepted and joins; a name with a mark matters and is not accepted. -/
theorem namespaces_exact_marked :
    let s : Settings := ⟨false, 1, ["é"], .text⟩
    let names := s.namespacesWith []
    s.validate = .ok s ∧ names.contains "b?" = false ∧ names.Matters "b?" ∧
      Settings.isNamespace "b?" = false ∧ (tokenize names ("é" ++ ".x")).tokens =
        [⟨.ident, "é.x", ⟨0, 4, 1, 1⟩⟩, Token.eof ⟨4, 4, 1, 4⟩] := by
  intro s names
  obtain ⟨-, hmatters, hvalid, haccepted, -⟩ := namespaces_exact
  have hcontains : names.contains "b?" = false := by decide +kernel
  have hmarked : names.Matters "b?" :=
    (hmatters names "b?" hcontains).mpr ⟨"b", by decide +kernel, .inr (.inl (by decide))⟩
  have hone : ∀ n ∈ s.namespaces,
      (∀ c ∈ n.toList, isNameSuffix c = false) ∧ Namespaces.empty.Matters n := by
    intro n hn
    obtain rfl := List.mem_singleton.mp hn
    exact ⟨(Settings.isNamespace_iff.mp (by decide +kernel)).1,
      (hmatters .empty "é" (by decide)).mpr ⟨"é", by decide +kernel, .inl rfl⟩⟩
  have hs : s.validate = .ok s := (hvalid s).mpr ⟨by decide, hone⟩
  refine ⟨hs, hcontains, hmarked, by decide +kernel, ?_⟩
  rw [(haccepted s s hs "é" (List.mem_singleton.mpr rfl)).2 []]
  decide +kernel

end Lexis
