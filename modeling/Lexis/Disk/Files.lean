import Lexis.Disk.Basic

/-!
# Trees of files

A tree of files as a plain value: a map from places to entries. A place is the list of names that
leads to it from the root, which is always a directory. Paths are followed step by step, from the
root or from the working directory, so that `.` and `..` mean what they mean on a real disk: `x/..`
exists only if `x` is a directory.
-/

namespace Lexis

/-- What can be at a place. -/
inductive Entry where
  /-- A directory. -/
  | directory
  /-- A file with its bytes. -/
  | file (content : ByteArray)

/-- The entry is a directory. -/
def Entry.isDirectory : Entry → Bool
  | directory => true
  | file _ => false

/-- A place: the names that lead to it from the root. -/
abbrev Place := List String

/-- A tree of files. -/
structure Files where
  /-- What is where; the latest entry for a place counts. -/
  entries : List (Place × Entry) := []
  /-- The working directory, where paths start that are not rooted. -/
  working : Place := []

namespace Files

/-! ### Entries -/

/-- What is at a place. -/
def entry? (files : Files) (place : Place) : Option Entry :=
  if place.isEmpty then some .directory else files.entries.lookup place

/-- Puts an entry at a place. -/
def set (files : Files) (place : Place) (entry : Entry) : Files :=
  { files with entries := (place, entry) :: files.entries }

/-! ### Following paths -/

/-- Follows names from a place. Every name needs a directory to be looked up in. -/
def follow (files : Files) (here : Place) : List String → Except DiskError Place
  | [] => .ok here
  | name :: more =>
    match files.entry? here with
    | some .directory =>
      if name = "." then files.follow here more
      else if name = ".." then files.follow here.dropLast more
      else match files.entry? (here ++ [name]) with
        | some _ => files.follow (here ++ [name]) more
        | none => .error .notFound
    | some (.file _) => .error .notDirectory
    | none => .error .notFound

/-- Where a path starts. -/
def start (files : Files) (rooted : Bool) : Place :=
  if rooted then [] else files.working

/-- The place that a path leads to. The empty path leads nowhere. -/
def locate (files : Files) (path : String) : Except DiskError Place :=
  if path.isEmpty then .error .notFound
  else files.follow (files.start (Path.isRooted path)) (Path.steps path)

/-- The directory at the end of some names. -/
def locateDirectory (files : Files) (rooted : Bool) (names : List String) :
    Except DiskError Place :=
  files.follow (files.start rooted) (names ++ ["."])

/-- Something is at the path. -/
def isThere (files : Files) (path : String) : Bool :=
  (files.locate path).toOption.isSome

/-- A directory is at the path. -/
def isDirectory (files : Files) (path : Path.Parts) : Bool :=
  (files.locateDirectory path.rooted path.names).toOption.isSome

/-! ### Reading and writing -/

/-- The text of the file at the path. -/
def read (files : Files) (path : String) : Except DiskError String :=
  match files.locate path with
  | .error e => .error e
  | .ok place =>
    match files.entry? place with
    | some (.file content) =>
      match String.fromUTF8? content with
      | some text => .ok text
      | none => .error .notText
    | some .directory => .error .isDirectory
    | none => .error .notFound

/-- The name can be given to a new entry: it is not one of the two that every directory has. -/
def isFresh (name : String) : Bool :=
  name != "." && name != ".."

/-- Makes a directory. -/
def makeDir (files : Files) (path : Path.Parts) : Except DiskError Files :=
  match path.inward with
  | [] => .error .notFound
  | name :: _ =>
    match files.locateDirectory path.rooted path.parent.names with
    | .error e => .error e
    | .ok place =>
      if isFresh name && (files.entry? (place ++ [name])).isNone then
        .ok (files.set (place ++ [name]) .directory)
      else .error .alreadyExists

/-- Puts a text at the path. -/
def write (files : Files) (path text : String) : Except DiskError Files :=
  match (Path.names path).getLast? with
  | none => .error (if path.isEmpty then .notFound else .isDirectory)
  | some name =>
    match files.locateDirectory (Path.isRooted path) (Path.names path).dropLast with
    | .error e => .error e
    | .ok place =>
      if Path.asksDirectory path || !isFresh name then .error .isDirectory
      else if (files.entry? (place ++ [name])).any Entry.isDirectory then .error .isDirectory
      else .ok (files.set (place ++ [name]) (.file text.toUTF8))

/-! ### Building a tree -/

/-- Adds a directory, with those above it. -/
def addDirectory (files : Files) (place : Place) : Files :=
  (List.range (place.length + 1)).foldl (fun fs n =>
    if (fs.entry? (place.take n)).isSome then fs else fs.set (place.take n) .directory) files

/-- Adds a file, with the directories above it. -/
def addFile (files : Files) (place : Place) (content : ByteArray) : Files :=
  (files.addDirectory place.dropLast).set place (.file content)

/-- The tree that holds nothing but its working directory. -/
def bare (working : Place) : Files :=
  ({ working } : Files).addDirectory working

end Files

/-- Puts a change into effect, if it succeeded. -/
def Files.commit (change : Files → Except DiskError Files) :
    StateM Files (Except DiskError Unit) :=
  fun files =>
    match change files with
    | .ok changed => (.ok (), changed)
    | .error e => (.error e, files)

instance : Disk (StateM Files) where
  isThere path := return (← get).isThere path
  isDirectory path := return (← get).isDirectory path
  read path := return (← get).read path
  makeDir path := Files.commit (·.makeDir path)
  write path text := Files.commit (·.write path text)

end Lexis
