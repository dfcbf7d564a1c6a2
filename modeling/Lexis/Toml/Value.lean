/-!
# TOML values

A TOML document is a table of named values. Tables come about in several ways, and how one came
about decides whether it may still be extended (`Standing`): a table between braces is closed as
soon as it is read, a table with a header of its own is complete, while a table that was only
mentioned on the way to another one may still receive a header.
-/

namespace Lexis.Toml

/-- How a table came about. -/
inductive Standing where
  /-- Written between braces. -/
  | inline
  /-- Opened by a header of its own, or the root. -/
  | header
  /-- Mentioned in the header of a table below it. -/
  | implied
  /-- Mentioned in a dotted key. -/
  | dotted
deriving DecidableEq, Repr

/-- A value. Numbers with a fraction and points in time are checked but not kept, since no
setting has such a value. -/
inductive Value where
  /-- A text. -/
  | string (text : String)
  /-- A whole number. -/
  | integer (n : Int)
  /-- A number with a fraction, an infinity, or no number. -/
  | float
  /-- A truth value. -/
  | boolean (b : Bool)
  /-- A date, a time, or both. -/
  | moment
  /-- Values between brackets. -/
  | array (items : List Value)
  /-- A table. -/
  | table (standing : Standing) (entries : List (String × Value))
  /-- Tables collected under one header, in order. -/
  | tables (items : List (List (String × Value)))
deriving Repr

/-- The content of a table, in the order in which keys came up. -/
abbrev Entries := List (String × Value)

namespace Entries

/-- The value of a key. -/
def get? (entries : Entries) (key : String) : Option Value :=
  entries.lookup key

/-- Gives a key a new value; its place stays the same. -/
def put (entries : Entries) (key : String) (value : Value) : Entries :=
  match entries with
  | [] => [(key, value)]
  | (k, v) :: more => if k = key then (k, value) :: more else (k, v) :: put more key value

theorem get?_cons (k : String) (v : Value) (more : Entries) (key : String) :
    get? ((k, v) :: more) key = if key = k then some v else more.get? key := by
  by_cases h : key = k
  · simp [get?, h]
  · simp [get?, List.lookup_cons, h, beq_eq_false_iff_ne.mpr h]

/-- A key has the value that it was given last. -/
@[simp]
theorem get?_put_self (entries : Entries) (key : String) (value : Value) :
    (entries.put key value).get? key = some value := by
  induction entries with
  | nil => simp [put, get?_cons]
  | cons entry more ih =>
    obtain ⟨k, v⟩ := entry
    by_cases h : k = key
    · simp [put, get?_cons, h]
    · simp [put, get?_cons, h, Ne.symm h, ih]

/-- Giving a key a value leaves all other keys alone. -/
theorem get?_put_of_ne {key other : String} (h : other ≠ key) (entries : Entries) (value : Value) :
    (entries.put key value).get? other = entries.get? other := by
  induction entries with
  | nil => simp [put, get?_cons, h]
  | cons entry more ih =>
    obtain ⟨k, v⟩ := entry
    by_cases hk : k = key
    · subst hk; simp [put, get?_cons, h]
    · simp [put, get?_cons, hk, ih]

end Entries

end Lexis.Toml
