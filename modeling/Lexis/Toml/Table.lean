import Lexis.Toml.Value

/-!
# Extending tables

A key or a header names a path of tables, of which those that are missing are made on the way. A
header may pass through every table that is not closed, and through the latest of collected tables.
A dotted key may pass only through tables that have no header of their own, and its last step must
end in a table that dotted keys made.
-/

namespace Lexis.Toml

/-- Who extends a table. -/
inductive Route where
  /-- The header of a table. -/
  | header
  /-- A dotted key. -/
  | key
deriving DecidableEq, Repr

namespace Route

/-- The standing of a table that is made on the way. -/
def making : Route → Standing
  | header => .implied
  | key => .dotted

/-- The route may pass through a table of this standing. -/
def passes : Route → Standing → Bool
  | _, .inline => false
  | _, .implied => true
  | _, .dotted => true
  | header, .header => true
  | key, .header => false

end Route

/-- Changes the table at the end of a path, which starts in a table of the given standing. The
change sees the standing of the table it is made to. -/
def within (route : Route) (change : Standing → Entries → Option Entries) :
    List String → Standing → Entries → Option Entries
  | [], standing, entries => change standing entries
  | name :: path, _, entries =>
    match entries.get? name with
    | none => do
      let inner ← within route change path route.making []
      return entries.put name (.table route.making inner)
    | some (.table standing inner) =>
      if route.passes standing then do
        let inner ← within route change path standing inner
        return entries.put name (.table standing inner)
      else none
    | some (.tables items) =>
      match items.getLast? with
      | none => none
      | some latest => do
        let latest ← within route change path .header latest
        return entries.put name (.tables (items.dropLast ++ [latest]))
    | some _ => none

/-- Adds a new key. -/
def addKey (name : String) (value : Value) (entries : Entries) : Option Entries :=
  if (entries.get? name).isSome then none else some (entries.put name value)

/-- Adds a value under a dotted key, given as the path in front of its last name. -/
def addDotted (path : List String) (name : String) (value : Value) (entries : Entries) :
    Option Entries :=
  within .key (fun standing inner =>
    if path.isEmpty || standing == .dotted then addKey name value inner else none)
    path .header entries

/-- Opens the table with the given path and last name. -/
def openTable (path : List String) (name : String) (entries : Entries) : Option Entries :=
  within .header (fun _ inner =>
    match inner.get? name with
    | none => some (inner.put name (.table .header []))
    | some (.table .implied content) => some (inner.put name (.table .header content))
    | some _ => none)
    path .header entries

/-- Opens a further table under the given path and last name. -/
def openItem (path : List String) (name : String) (entries : Entries) : Option Entries :=
  within .header (fun _ inner =>
    match inner.get? name with
    | none => some (inner.put name (.tables [[]]))
    | some (.tables items) => some (inner.put name (.tables (items ++ [[]])))
    | some _ => none)
    path .header entries

end Lexis.Toml
