/-!
# Levels of a diagnostic

The four levels in order of weight, the gravest first.
-/

namespace Lexis

/-- How grave a diagnostic is. -/
inductive Level where
  | error
  | warning
  | note
  | help
deriving DecidableEq, Repr

namespace Level

/-- Place in the order of weight: errors come first. -/
def rank : Level → Nat
  | error => 0
  | warning => 1
  | note => 2
  | help => 3

instance : LE Level := ⟨fun a b => a.rank ≤ b.rank⟩

instance (a b : Level) : Decidable (a ≤ b) :=
  inferInstanceAs (Decidable (a.rank ≤ b.rank))

/-- Whether the level is that of an error. -/
def isError : Level → Bool
  | error => true
  | _ => false

/-- The word for a level. -/
def text : Level → String
  | error => "error"
  | warning => "warning"
  | note => "note"
  | help => "help"

/-- Levels in order of weight. -/
def sort (levels : List Level) : List Level :=
  levels.mergeSort (fun a b => decide (a ≤ b))

end Level

end Lexis
