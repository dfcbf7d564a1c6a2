/-!
# Sets of code points given by ranges

A property of characters is stored as a list of closed ranges of code points, in increasing
order. `Ranges.has` asks whether a character lies in **some** range; the order of the list is
a convenience for the reader of a table and is not used by the test.
-/

namespace Lexis.Text

/-- A set of code points as closed ranges `(first, last)`. -/
abbrev Ranges := List (Nat × Nat)

/-- The character lies in one of the ranges. -/
def Ranges.has (ranges : Ranges) (c : Char) : Bool :=
  ranges.any fun r => r.1 ≤ c.toNat && c.toNat ≤ r.2

/-- Below this code point a character is ASCII, and its class is decided without a table. -/
def asciiEnd : Nat := 0x80

end Lexis.Text
