import Lexis.Settings.Basic
import Lexis.Toml.Document

/-!
# Settings from a document

What a settings file says is read off its root table. Keys that mean nothing are passed over, and
what is not said takes its standard value. A group of settings (`lexer`, `output`) may be a table
with the settings by name, or an array with the settings in order; a choice may be a word, or a
table with the word as its only key and nothing below it.
-/

namespace Lexis.Settings

open Lexis.Toml

/-- The value of a setting, or its standard value if nothing is said. -/
def settingOr {α : Type} (fallback : α) (decode : Value → Option α) :
    Option Value → Option α
  | none => some fallback
  | some v => decode v

/-- A truth value. -/
def decodeBool : Value → Option Bool
  | .boolean b => some b
  | _ => none

/-- A number that is not negative. -/
def decodeNat : Value → Option Nat
  | .integer n => if 0 ≤ n then some n.toNat else none
  | _ => none

/-- A text. -/
def decodeString : Value → Option String
  | .string s => some s
  | _ => none

/-- The values of an array, whether it is written between brackets or collected under headers. -/
def arrayItems? : Value → Option (List Value)
  | .array items => some items
  | .tables items => some (items.map (.table .header))
  | _ => none

/-- A list of texts. -/
def decodeStrings (v : Value) : Option (List String) := do
  (← arrayItems? v).mapM decodeString

/-- Whether a value is an array or a table without content. -/
def holdsNothing : Value → Bool
  | .array items => items.isEmpty
  | .table _ entries => entries.isEmpty
  | .tables items => items.isEmpty
  | _ => false

/-- A format. -/
def decodeFormat : Value → Option Format
  | .string word => Format.ofWord? word
  | .table _ [(word, content)] => if holdsNothing content then Format.ofWord? word else none
  | _ => none

/-- The only setting of a group, by its name or as the first item. -/
def groupSetting {α : Type} (name : String) (fallback : α) (decode : Value → Option α) :
    Value → Option α
  | .table _ entries => settingOr fallback decode (Entries.get? entries name)
  | v => do settingOr fallback decode (← arrayItems? v).head?

/-- The settings that a root table describes. -/
def ofEntries? (processors : Nat) (root : Entries) : Option Settings := do
  let base := standard processors
  return {
    verbose := ← settingOr base.verbose decodeBool (root.get? "verbose")
    jobs := ← settingOr base.jobs decodeNat (root.get? "jobs")
    namespaces := ← settingOr base.namespaces
      (groupSetting "namespaces" base.namespaces decodeStrings) (root.get? "lexer")
    format := ← settingOr base.format
      (groupSetting "format" base.format decodeFormat) (root.get? "output") }

/-- The settings that a text describes. -/
def ofText (processors : Nat) (text : String) : Except Fault Settings :=
  match (Toml.read? text).bind (ofEntries? processors) with
  | some s => s.validate
  | none => .error Fault.settingsMalformed

end Lexis.Settings
