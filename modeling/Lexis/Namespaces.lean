/-!
# Sets of namespaces

A namespace is a name that joins with a following `.member` into a single name. The set of
namespaces is kept as its **canonical listing**, strictly increasing in code point order (which is
also the order of the UTF-8 bytes), so that two sets are equal iff their listings are.
-/

namespace Lexis

/-- A finite set of names. -/
structure Namespaces where
  /-- The names, in increasing order and without repetition. -/
  names : List String
  /-- The listing is strictly increasing. -/
  sorted : names.Pairwise (· < ·)
deriving DecidableEq

namespace Namespaces

/-- Puts a name in its place of a listing, unless it is there already. -/
def place (name : String) : List String → List String
  | [] => [name]
  | x :: xs =>
    if name < x then name :: x :: xs
    else if name = x then x :: xs
    else x :: place name xs

theorem mem_place {name y : String} {xs : List String} :
    y ∈ place name xs ↔ y = name ∨ y ∈ xs := by
  induction xs with
  | nil => simp [place]
  | cons x xs ih =>
    rw [place]
    split
    · simp
    · split
      · next h => subst h; simp
      · simp [ih, or_left_comm]

theorem pairwise_place {name : String} {xs : List String} (h : xs.Pairwise (· < ·)) :
    (place name xs).Pairwise (· < ·) := by
  induction xs with
  | nil => simp [place]
  | cons x xs ih =>
    have hx := List.pairwise_cons.mp h
    rw [place]
    split
    · next hlt =>
      refine List.pairwise_cons.mpr ⟨fun y hy => ?_, h⟩
      rcases List.mem_cons.mp hy with rfl | hy
      · exact hlt
      · exact String.lt_trans hlt (hx.1 y hy)
    · next hnlt =>
      split
      · exact h
      · next hne =>
        refine List.pairwise_cons.mpr ⟨fun y hy => ?_, ih hx.2⟩
        rcases mem_place.mp hy with rfl | hy
        · exact Decidable.byContradiction fun hyx =>
            hne (String.le_antisymm (String.not_lt.mp hyx) (String.not_lt.mp hnlt))
        · exact hx.1 y hy

/-- The set without a name. -/
def empty : Namespaces := ⟨[], List.Pairwise.nil⟩

/-- Adds a name. -/
def insert (ns : Namespaces) (name : String) : Namespaces :=
  ⟨place name ns.names, pairwise_place ns.sorted⟩

/-- The set of the given names, in any order and with any repetition. -/
def ofList (names : List String) : Namespaces :=
  names.foldl insert empty

/-- The name belongs to the set. -/
def contains (ns : Namespaces) (name : String) : Bool :=
  ns.names.contains name

/-- The namespaces of the language's own library, in their customary order. -/
def builtin : List String :=
  ["os", "file", "directory", "math", "string"]

/-- The set used where none is asked for. -/
def standard : Namespaces :=
  ofList builtin

instance : Inhabited Namespaces := ⟨standard⟩

end Namespaces

end Lexis
