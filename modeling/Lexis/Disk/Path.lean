/-!
# Paths

A path is a text; its names are what stands between the slashes. Names are followed one after the
other (`Path.steps`), and a slash at the end asks for a directory, as a final `.` does. The parts
of a path are its names without any `.` behind the first, and can be taken off from the end.
-/

namespace Lexis.Path

/-- The pieces of a text between slashes. -/
def pieces : List Char → List (List Char)
  | [] => [[]]
  | c :: rest =>
    if c = '/' then [] :: pieces rest
    else match pieces rest with
      | [] => [[c]]
      | piece :: more => (c :: piece) :: more

/-- The names along a path. -/
def names (path : String) : List String :=
  ((pieces path.toList).filter (!·.isEmpty)).map String.ofList

/-- The path ends with a slash. -/
def asksDirectory (path : String) : Bool :=
  path.toList.getLast? == some '/'

/-- The path starts at the root of the tree. -/
def isRooted (path : String) : Bool :=
  path.toList.head? == some '/'

/-- The names to follow, in order. -/
def steps (path : String) : List String :=
  names path ++ if asksDirectory path then ["."] else []

/-- A path taken apart. -/
structure Parts where
  /-- It starts at the root of the tree. -/
  rooted : Bool
  /-- Its names, the **last** first. -/
  inward : List String
deriving DecidableEq, Repr

/-- The parts of a path. -/
def parts (path : String) : Parts :=
  match names path with
  | [] => ⟨isRooted path, []⟩
  | first :: more =>
    let more := more.filter (· != ".")
    if first == "." && isRooted path then ⟨true, more.reverse⟩
    else ⟨isRooted path, (first :: more).reverse⟩

namespace Parts

/-- The names in the order in which they are followed. -/
def names (p : Parts) : List String :=
  p.inward.reverse

/-- The path with these parts. -/
def text (p : Parts) : String :=
  (if p.rooted then "/" else "") ++ "/".intercalate p.names

/-- The parts without the last name. -/
def parent (p : Parts) : Parts :=
  ⟨p.rooted, p.inward.tail⟩

end Parts

/-- The path to a name below a directory. -/
def join (directory name : String) : String :=
  if directory.isEmpty then name else directory ++ "/" ++ name

end Lexis.Path
