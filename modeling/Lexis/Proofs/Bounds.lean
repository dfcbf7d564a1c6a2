import Lexis.Toml.Document
import Mathlib.Tactic.SplitIfs

/-!
# Whole numbers in a document

However a document spells a whole number, it is small enough for the format when it has been read
(`lt_of_integer?`). What is said here about the values in a table is only about the table itself and
not about those inside it (`Entries.Fit`): every way to extend a table either gives a key a value
that has just been read, or puts a table in place, so each line keeps what has been said
(`fit_line?`).
-/

namespace Lexis.Toml

/-- The value is no whole number that is too large. What it holds does not count. -/
def Value.Fits : Value → Prop
  | .integer n => n < integerEnd
  | _ => True

namespace Entries

/-- No key has a whole number that is too large. -/
def Fit (entries : Entries) : Prop :=
  ∀ key value, entries.get? key = some value → value.Fits

private theorem fit_nil : Fit [] := by
  intro key value h
  cases h

/-- Putting a value within bounds under a key keeps the entries within bounds. -/
theorem Fit.put {entries : Entries} (h : entries.Fit) (key : String) {value : Value}
    (hvalue : value.Fits) : (entries.put key value).Fit := by
  intro other found hfound
  by_cases hother : other = key
  · rw [hother, get?_put_self] at hfound
    rwa [← Option.some.inj hfound]
  · rw [get?_put_of_ne hother] at hfound
    exact h other found hfound

end Entries

/-! ### Values -/

/-- A whole number that is read is below the bound: the reader gives up on any other, in each base
and with each sign. -/
private theorem lt_of_integer? {cs rest : List Char} {n : Int} (h : integer? cs = some (n, rest)) :
    n < integerEnd := by
  have hbased : ∀ base digit cs, based? base digit cs = some (n, rest) → n < integerEnd := by
    intro base digit cs h
    simp only [based?, Option.bind_eq_bind, Option.bind_eq_some_iff] at h
    obtain ⟨⟨digits, more⟩, -, h⟩ := h
    split_ifs at h with hlt
    obtain ⟨rfl, -⟩ := Prod.mk.inj (Option.some.inj h)
    exact Int.ofNat_lt.mpr hlt
  have hdecimal : ∀ cs, decimal? cs = some (n, rest) → n < integerEnd := by
    intro cs h
    simp only [decimal?, Option.bind_eq_bind, Option.bind_eq_some_iff] at h
    obtain ⟨⟨digits, more⟩, -, h⟩ := h
    split_ifs at h with hnegative hle hlt
    · obtain ⟨rfl, -⟩ := Prod.mk.inj (Option.some.inj h)
      have hpos : 0 < integerEnd := Nat.pow_pos (by decide)
      omega
    · obtain ⟨rfl, -⟩ := Prod.mk.inj (Option.some.inj h)
      exact Int.ofNat_lt.mpr hlt
  unfold integer? at h
  split at h
  · exact hbased _ _ _ h
  · exact hbased _ _ _ h
  · exact hbased _ _ _ h
  · exact hdecimal _ h

/-- A value that begins like a number fits. It is a number, a moment or one of the words for numbers
that are not finite, and only whole numbers are bounded. -/
private theorem fits_numeric? {cs rest : List Char} {value : Value}
    (h : numeric? cs = some (value, rest)) : value.Fits := by
  rw [numeric?] at h
  cases hmoment : moment? cs with
  | some more =>
    rw [hmoment] at h
    cases h
    trivial
  | none =>
    cases hfloat : float? cs with
    | some more =>
      rw [hmoment, hfloat] at h
      cases h
      trivial
    | none =>
      cases hinteger : integer? cs with
      | some found =>
        rw [hmoment, hfloat, hinteger] at h
        cases h
        exact lt_of_integer? hinteger
      | none =>
        rw [hmoment, hfloat, hinteger] at h
        cases h

private theorem fits_of_map {α : Type} {read : Option α} {make : α → Value × List Char}
    {found : Value × List Char} (h : read.map make = some found) (hmake : ∀ a, (make a).1.Fits) :
    found.1.Fits := by
  obtain ⟨a, -, rfl⟩ := Option.map_eq_some_iff.mp h
  exact hmake a

/-- A value that holds no others fits: texts and truth values are not bounded, and numbers have been
looked at. -/
private theorem fits_scalar? {cs : List Char} {found : Value × List Char}
    (h : scalar? cs = some found) : found.1.Fits := by
  unfold scalar? at h
  split at h
  · cases h
  · split_ifs at h with htext htrue hfalse
    · exact fits_of_map h fun _ => trivial
    · exact fits_of_map h fun _ => trivial
    · exact fits_of_map h fun _ => trivial
    · exact fits_numeric? h

/-- **No value is a whole number that is too large.** Arrays and tables fit whatever they hold; what
remains is a text or a scalar. -/
theorem fits_value? {depth : Nat} {cs : List Char} {found : Value × List Char}
    (h : value? depth cs = some found) : found.1.Fits := by
  unfold value? at h
  split at h
  · cases h
  · cases h
  · exact fits_of_map h fun _ => trivial
  · split at h
    · cases h
      trivial
    · exact fits_of_map h fun _ => trivial
  · exact fits_scalar? h

private theorem fits_pair? {cs rest : List Char} {path : List String} {value : Value}
    (h : pair? (value? nesting) cs = some ((path, value), rest)) : value.Fits := by
  simp only [pair?, Option.bind_eq_bind, Option.bind_eq_some_iff] at h
  obtain ⟨_, -, _, -, found, hvalue, hnext⟩ := h
  cases hnext
  exact fits_value? hvalue

/-! ### Tables -/

/-- A change at the end of a path keeps the table that the path starts in, if it would keep it. The
tables on the way are put back with one entry changed, in whichever way the path goes through
them. -/
private theorem fit_within {route : Route} {change : Standing → Entries → Option Entries}
    (hchange : ∀ standing entries after, entries.Fit → change standing entries = some after →
      after.Fit) {path : List String} {standing : Standing} {entries after : Entries}
    (hentries : entries.Fit) (h : within route change path standing entries = some after) :
    after.Fit := by
  cases path with
  | nil => exact hchange standing entries after hentries h
  | cons name path =>
    -- whatever is below, a table is put in place
    rw [within] at h
    split at h
    · obtain ⟨inner, -, hafter⟩ := Option.bind_eq_some_iff.mp h
      cases hafter
      exact hentries.put name trivial
    · split_ifs at h
      obtain ⟨inner, -, hafter⟩ := Option.bind_eq_some_iff.mp h
      cases hafter
      exact hentries.put name trivial
    · split at h
      · cases h
      · obtain ⟨latest, -, hafter⟩ := Option.bind_eq_some_iff.mp h
        cases hafter
        exact hentries.put name trivial
    · cases h

/-- A pair with a dotted key keeps the table that it is added to. -/
private theorem fit_addDotted {path : List String} {name : String} {value : Value}
    (hvalue : value.Fits) {entries after : Entries} (hentries : entries.Fit)
    (h : addDotted path name value entries = some after) : after.Fit := by
  refine fit_within (fun standing inner after hinner hchange => ?_) hentries h
  split_ifs at hchange
  unfold addKey at hchange
  split_ifs at hchange
  cases hchange
  exact hinner.put name hvalue

namespace Document

/-- A pair keeps the root table, wherever the current table stands in it. -/
private theorem fit_add {doc next : Document} (hdoc : doc.root.Fit) {path : List String}
    {value : Value} (hvalue : value.Fits) (h : doc.add path value = some next) : next.root.Fit := by
  obtain ⟨root, hroot, hnext⟩ := Option.bind_eq_some_iff.mp h
  cases hnext
  exact fit_within (fun _ _ _ hentries => fit_addDotted hvalue hentries) hdoc hroot

/-- A header opens a table without a value of its own. -/
private theorem fit_openTable {doc next : Document} (hdoc : doc.root.Fit) {path : List String}
    (h : doc.openTable path = some next) : next.root.Fit := by
  obtain ⟨root, hroot, hnext⟩ := Option.bind_eq_some_iff.mp h
  cases hnext
  refine fit_within (fun _ inner after hinner hchange => ?_) hdoc hroot
  split at hchange
  · cases hchange
    exact hinner.put _ trivial
  · cases hchange
    exact hinner.put _ trivial
  · cases hchange

private theorem fit_openItem {doc next : Document} (hdoc : doc.root.Fit) {path : List String}
    (h : doc.openItem path = some next) : next.root.Fit := by
  obtain ⟨root, hroot, hnext⟩ := Option.bind_eq_some_iff.mp h
  cases hnext
  refine fit_within (fun _ inner after hinner hchange => ?_) hdoc hroot
  split at hchange
  · cases hchange
    exact hinner.put _ trivial
  · cases hchange
    exact hinner.put _ trivial
  · cases hchange

/-- **A line keeps the root table within bounds**, whether it holds a pair, a header or nothing. -/
theorem fit_line? {doc next : Document} (hdoc : doc.root.Fit) {cs rest : List Char}
    (h : line? doc cs = some (next, rest)) : next.root.Fit := by
  unfold line? at h
  split at h <;> simp only [Option.bind_eq_bind, Option.bind_eq_some_iff] at h
  · obtain ⟨_, -, _, -, opened, hopen, _, -, hnext⟩ := h
    cases hnext
    exact fit_openItem hdoc hopen
  · obtain ⟨_, -, _, -, opened, hopen, _, -, hnext⟩ := h
    cases hnext
    exact fit_openTable hdoc hopen
  · obtain ⟨_, -, hnext⟩ := h
    cases hnext
    exact hdoc
  · obtain ⟨_, -, hnext⟩ := h
    cases hnext
    exact hdoc
  · obtain ⟨_, -, hnext⟩ := h
    cases hnext
    exact hdoc
  · obtain ⟨⟨⟨path, value⟩, _⟩, hpair, added, hadd, _, -, hnext⟩ := h
    cases hnext
    exact fit_add hdoc (fits_pair? hpair) hadd

/-- **All lines do**, by induction on the lines that are read. -/
theorem fit_lines? {limit : Nat} {doc last : Document} (hdoc : doc.root.Fit) {cs : List Char}
    (h : lines? limit doc cs = some last) : last.root.Fit := by
  induction limit generalizing doc cs with
  | zero => cases h
  | succ limit ih =>
    rw [lines?] at h
    split at h
    · cases h
      exact hdoc
    · obtain ⟨⟨next, rest⟩, hline, hmore⟩ := Option.bind_eq_some_iff.mp h
      exact ih (fit_line? hdoc hline) hmore

end Document

/-- **A document is within bounds**: no whole number in it is too large to be written again. -/
theorem fit_read? {text : String} {root : Entries} (h : Toml.read? text = some root) :
    root.Fit := by
  obtain ⟨doc, hdoc, rfl⟩ := Option.map_eq_some_iff.mp h
  exact Document.fit_lines? Entries.fit_nil hdoc

end Lexis.Toml
