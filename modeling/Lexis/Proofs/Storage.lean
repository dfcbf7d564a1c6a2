import Lexis.Disk.Files
import Mathlib.Tactic.SplitIfs

/-!
# What is written can be read

A text that is written to a path is found there, byte for byte, when the path is followed again.
The point is that writing does not lead paths astray: it puts a file where **no directory** was, so
every directory on the way is still what it was (`follow_set`).
-/

namespace Lexis

/-- A text is read back from its bytes. -/
private theorem fromUTF8?_toUTF8 (text : String) : String.fromUTF8? text.toUTF8 = some text := by
  unfold String.fromUTF8?
  rw [String.toUTF8_eq_toByteArray, dif_pos text.isValidUTF8]
  rfl

namespace Files

/-! ### Entries -/

section

variable {files : Files} {target : Place} {content : ByteArray}

/-- What is put at a place is found there. The root is left out: it is always a directory. -/
theorem entry?_set_self (hne : target ≠ []) (entry : Entry) :
    Files.entry? (files.set target entry) target = some entry := by
  simp [Files.entry?, set, hne]

/-- Every other place keeps what it had. -/
theorem entry?_set_of_ne {place : Place} (hne : place ≠ target) (entry : Entry) :
    Files.entry? (files.set target entry) place = files.entry? place := by
  unfold Files.entry?
  split
  · rfl
  · simp [set, List.lookup_cons, beq_eq_false_iff_ne.mpr hne]

/-- A file takes the place of no directory. -/
private theorem entry?_set_of_directory {place : Place} (h : files.entry? place = some .directory)
    (htarget : (files.entry? target).any Entry.isDirectory = false) :
    Files.entry? (files.set target (.file content)) place = some .directory := by
  have hne : place ≠ target := by
    rintro rfl
    rw [h] at htarget
    cases htarget
  rw [entry?_set_of_ne hne, h]

/-- What was there is still there, or a file is in its place. -/
private theorem isSome_entry?_set {place : Place} (hne : target ≠ [])
    (h : (files.entry? place).isSome = true) :
    (Files.entry? (files.set target (.file content)) place).isSome = true := by
  by_cases hplace : place = target
  · rw [hplace, entry?_set_self hne]
    rfl
  · rwa [entry?_set_of_ne hplace]

/-! ### Following paths -/

/-- One name leads from a directory to a place. -/
def Steps (files : Files) (here : Place) (name : String) (next : Place) : Prop :=
  files.entry? here = some .directory ∧
    (name = "." ∧ next = here ∨ name = ".." ∧ next = here.dropLast ∨
      isFresh name = true ∧ (files.entry? (here ++ [name])).isSome = true ∧ next = here ++ [name])

/-- A name can be given to a new entry unless it is one of the two that every directory has
already. -/
theorem isFresh_iff {name : String} : isFresh name = true ↔ name ≠ "." ∧ name ≠ ".." := by
  simp [isFresh]

/-- The names behind a step are followed from where it leads, whichever of the three ways the step
takes. -/
theorem Steps.follow {here next : Place} {name : String} (h : Steps files here name next)
    (more : List String) : files.follow here (name :: more) = files.follow next more := by
  obtain ⟨hhere, ⟨rfl, rfl⟩ | ⟨rfl, rfl⟩ | ⟨hfresh, hthere, rfl⟩⟩ := h
  · rw [Files.follow, hhere]
    rfl
  · rw [Files.follow, hhere]
    rfl
  · obtain ⟨hdot, hdots⟩ := isFresh_iff.mp hfresh
    obtain ⟨entry, hentry⟩ := Option.isSome_iff_exists.mp hthere
    simp [Files.follow, hhere, hdot, hdots, hentry]

/-- A path is followed name by name: the first one is a step, and the others are followed from
there. -/
private theorem exists_steps {here place : Place} {name : String} {more : List String}
    (h : files.follow here (name :: more) = .ok place) :
    ∃ next, Steps files here name next ∧ files.follow next more = .ok place := by
  rw [Files.follow] at h
  split at h
  · next hhere =>
    split_ifs at h with hdot hdots
    · exact ⟨here, ⟨hhere, .inl ⟨hdot, rfl⟩⟩, h⟩
    · exact ⟨here.dropLast, ⟨hhere, .inr (.inl ⟨hdots, rfl⟩)⟩, h⟩
    · split at h
      · next hentry =>
        refine ⟨here ++ [name], ⟨hhere, .inr (.inr ⟨isFresh_iff.mpr ⟨hdot, hdots⟩, ?_, rfl⟩)⟩, h⟩
        rw [hentry]
        rfl
      · cases h
  · cases h
  · cases h

/-- A file put where no directory was leaves every step as it is: the directory that the step starts
from is still one, and what it leads to is still there. -/
theorem Steps.set (hne : target ≠ [])
    (htarget : (files.entry? target).any Entry.isDirectory = false) {here next : Place}
    {name : String} (h : Steps files here name next) :
    Steps (files.set target (.file content)) here name next := by
  obtain ⟨hhere, hdot | hdots | ⟨hfresh, hthere, hnext⟩⟩ := h
  · exact ⟨entry?_set_of_directory hhere htarget, .inl hdot⟩
  · exact ⟨entry?_set_of_directory hhere htarget, .inr (.inl hdots)⟩
  · exact ⟨entry?_set_of_directory hhere htarget,
      .inr (.inr ⟨hfresh, isSome_entry?_set hne hthere, hnext⟩)⟩

/-- Names that lead to a directory can be followed by others. The single point at the end is what
asks for a directory. -/
theorem follow_directory {here place : Place} {names : List String}
    (h : files.follow here (names ++ ["."]) = .ok place) :
    files.entry? place = some .directory ∧
      ∀ more, files.follow here (names ++ more) = files.follow place more := by
  induction names generalizing here with
  | nil =>
    obtain ⟨next, ⟨hhere, ⟨-, rfl⟩ | ⟨hdots, -⟩ | ⟨hfresh, -⟩⟩, hplace⟩ := exists_steps h
    · obtain rfl : next = place := Except.ok.inj hplace
      exact ⟨hhere, fun more => rfl⟩
    · exact absurd hdots (by decide)
    · exact absurd hfresh (by decide)
  | cons name names ih =>
    obtain ⟨next, hsteps, hplace⟩ := exists_steps h
    obtain ⟨hdirectory, hmore⟩ := ih hplace
    exact ⟨hdirectory, fun more => (hsteps.follow _).trans (hmore more)⟩

/-- **A file leads no path to a directory astray**: by induction on the names, each step is still
there. -/
theorem follow_set (hne : target ≠ [])
    (htarget : (files.entry? target).any Entry.isDirectory = false) {here place : Place}
    {names : List String} (h : files.follow here (names ++ ["."]) = .ok place) :
    (files.set target (.file content)).follow here (names ++ ["."]) = .ok place := by
  induction names generalizing here with
  | nil =>
    obtain ⟨next, hsteps, hplace⟩ := exists_steps h
    exact ((hsteps.set hne htarget).follow []).trans hplace
  | cons name names ih =>
    obtain ⟨next, hsteps, hplace⟩ := exists_steps h
    exact ((hsteps.set hne htarget).follow _).trans (ih hplace)

end

/-! ### Writing and reading -/

/-- **When a text can be written.** The path ends in a fresh name, the names in front lead to a
directory, and no directory has the name in it; a file is put there and nothing else changes. -/
theorem write_cases {files after : Files} {path text : String}
    (h : files.write path text = .ok after) :
    ∃ name place, (Path.names path).getLast? = some name ∧ Path.asksDirectory path = false ∧
      isFresh name = true ∧
      files.follow (files.start (Path.isRooted path)) ((Path.names path).dropLast ++ ["."]) =
        .ok place ∧
      (files.entry? (place ++ [name])).any Entry.isDirectory = false ∧
      after = files.set (place ++ [name]) (.file text.toUTF8) := by
  unfold write at h
  split at h
  · cases h
  · next name hname =>
    split at h
    · cases h
    · next place hplace =>
      split_ifs at h with hfile hdirectory
      rw [Bool.or_eq_true, not_or] at hfile
      refine ⟨name, place, hname, by simpa using hfile.1, by simpa using hfile.2, hplace,
        by simpa using hdirectory, (Except.ok.inj h).symm⟩

/-- A text that is written is where its path leads. The directories on the way are still there, and
the last step leads to the file. -/
private theorem locate_of_write {files after : Files} {path text : String}
    (h : files.write path text = .ok after) :
    ∃ place, after.locate path = .ok place ∧ after.entry? place = some (.file text.toUTF8) := by
  obtain ⟨name, place, hname, hasks, hfresh, hplace, hfile, rfl⟩ := write_cases h
  have hne : place ++ [name] ≠ [] := by simp
  have hentry : Files.entry? (files.set (place ++ [name]) (.file text.toUTF8)) (place ++ [name]) =
      some (.file text.toUTF8) := entry?_set_self hne _
  have hsteps : Path.steps path = (Path.names path).dropLast ++ [name] := by
    obtain ⟨above, habove⟩ := List.getLast?_eq_some_iff.mp hname
    simp [Path.steps, hasks, habove]
  have hpath : path.isEmpty = false := by
    rw [Bool.eq_false_iff]
    intro hempty
    rw [String.isEmpty_iff.mp hempty] at hname
    cases hname
  have hlast : Steps (files.set (place ++ [name]) (.file text.toUTF8)) place name
      (place ++ [name]) := by
    obtain ⟨hdirectory, -⟩ := follow_directory hplace
    exact ⟨entry?_set_of_directory hdirectory hfile, .inr (.inr ⟨hfresh, by rw [hentry]; rfl, rfl⟩)⟩
  obtain ⟨-, hmore⟩ := follow_directory (follow_set hne hfile hplace)
  refine ⟨place ++ [name], ?_, hentry⟩
  rw [locate, hpath, hsteps]
  exact (hmore [name]).trans (hlast.follow [])

/-- **A text that is written can be read**, since the path leads to the place where it was put and
the bytes of a text give it back. -/
theorem read_of_write {files after : Files} {path text : String}
    (h : files.write path text = .ok after) : after.read path = .ok text := by
  obtain ⟨place, hplace, hentry⟩ := locate_of_write h
  simp only [read, hplace, hentry, fromUTF8?_toUTF8]

/-- A text can be put at the path, once the directories above it are made. -/
def Writable (files : Files) (path : String) : Prop :=
  ∃ made text after, (Disk.makeParents path : StateM Files (Except DiskError Unit)) files =
    (.ok (), made) ∧ made.write path text = .ok after

/-- Whether a text can be written does not depend on the text, so a path that took one takes any
other. -/
theorem exists_write {files after : Files} {path text : String}
    (h : files.write path text = .ok after) (other : String) :
    ∃ after, files.write path other = .ok after := by
  obtain ⟨name, place, hname, hasks, hfresh, hplace, hfile, -⟩ := write_cases h
  have hdirectory : files.locateDirectory (Path.isRooted path) (Path.names path).dropLast =
      .ok place := hplace
  refine ⟨files.set (place ++ [name]) (.file other.toUTF8), ?_⟩
  simp [write, hname, hdirectory, hasks, hfresh, hfile]

end Files

end Lexis
