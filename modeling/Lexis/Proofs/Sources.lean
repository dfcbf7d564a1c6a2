import Lexis.Disk.Files
import Lexis.Program

/-!
# What commands see of a tree of files

A command on sources looks every path up in the tree, leaves the tree as it is, and reads the texts
in the order of their paths. There are two cases, and nothing between them
(`Files.reads_of_not_unreadable`).

* Every path holds a text (`Files.Reads`): the command goes on with all texts, read one by one
  (`lexAll_of_reads`).
* Some path holds none (`Files.Unreadable`): the command ends with the fault of **such a path**, and
  of no other (`lexAll_of_unreadable`).
-/

namespace Lexis

namespace Files

/-- What the tree holds at each path. -/
def sources (files : Files) (paths : List String) : Command.Sources :=
  paths.map fun path => (path, files.read path)

/-- Every path holds a text, namely the one that is given for it. -/
def Reads (files : Files) (paths : List String) (text : String → String) : Prop :=
  ∀ path ∈ paths, files.read path = .ok (text path)

/-- One of the paths holds no text, for the given reason. -/
def Unreadable (files : Files) (paths : List String) (path : String) (e : DiskError) : Prop :=
  path ∈ paths ∧ files.read path = .error e

/-- If no path is unreadable, there is a text for each of them. -/
theorem reads_of_not_unreadable {files : Files} {paths : List String}
    (h : ¬ ∃ path e, files.Unreadable paths path e) : ∃ text, files.Reads paths text := by
  refine ⟨fun path => (files.read path).toOption.getD "", fun path hpath => ?_⟩
  cases hread : files.read path with
  | ok text => simp [hread, Except.toOption]
  | error e => exact absurd ⟨path, e, hpath, hread⟩ h

/-- Paths are readable if looking each of them up brings up something, which can be decided for a
given tree. -/
theorem not_unreadable {files : Files} {paths : List String}
    (h : ∀ path ∈ paths, (files.read path).toOption.isSome = true) :
    ¬ ∃ path e, files.Unreadable paths path e := by
  rintro ⟨path, e, hpath, he⟩
  have hsome := h path hpath
  rw [he] at hsome
  cases hsome

theorem Reads.eq_of_read {files : Files} {paths : List String} {text : String → String}
    (h : files.Reads paths text) {path source : String} (hpath : path ∈ paths)
    (hread : (files.read path).toOption = some source) : text path = source := by
  rw [h path hpath] at hread
  exact Option.some.inj hread

end Files

namespace Command

/-- Looking paths up leaves the tree as it is. Each path is looked up in the same tree, also one
that is given twice. -/
theorem readSources_files (paths : List String) (files : Files) :
    (readSources paths : StateM Files Sources) files = (files.sources paths, files) := by
  induction paths with
  | nil => rfl
  | cons path paths ih =>
    have hcons : (readSources (path :: paths) : StateM Files Sources) files =
        let more := (readSources paths : StateM Files Sources) files
        ((path, files.read path) :: more.1, more.2) := by
      simp only [readSources, List.mapM_cons]
      rfl
    rw [hcons, ih]
    rfl

/-! ### Reading the texts in order -/

/-- A text at a path, and what reading it brings up. -/
def lexed (names : Namespaces) (text : String → String) (path : String) : LexedFile :=
  ⟨path, text path, tokenize names (text path)⟩

variable {names : Namespaces} {files : Files} {paths : List String}

private theorem lexEach_of_reads {text : String → String} (h : files.Reads paths text) :
    (lexEach names (files.sources paths)).2 = .ok (paths.map (lexed names text)) := by
  induction paths with
  | nil => rfl
  | cons path paths ih =>
    have hpath : files.read path = .ok (text path) := h path List.mem_cons_self
    have ih := ih fun p hp => h p (List.mem_cons_of_mem path hp)
    simp only [Files.sources, List.map_cons, lexEach, hpath, LexedFile.ofRead] at ih ⊢
    rw [ih]
    rfl

/-- If there are paths without a text, the first of them in order is at fault: reading stops there,
and those behind it are not asked. -/
private theorem lexEach_of_unreadable (h : ∃ path e, files.Unreadable paths path e) :
    ∃ path e, files.Unreadable paths path e ∧
      (lexEach names (files.sources paths)).2 = .error (Fault.unreadable path e) := by
  induction paths with
  | nil =>
    obtain ⟨path, e, hpath, -⟩ := h
    exact absurd hpath List.not_mem_nil
  | cons path paths ih =>
    cases hread : files.read path with
    | error e =>
      refine ⟨path, e, ⟨List.mem_cons_self, hread⟩, ?_⟩
      simp only [Files.sources, List.map_cons, lexEach, hread, LexedFile.ofRead]
    | ok text =>
      -- the path at fault is a later one
      have hmore : ∃ path e, files.Unreadable paths path e := by
        obtain ⟨p, e, hp, he⟩ := h
        rcases List.mem_cons.mp hp with rfl | hp
        · rw [hread] at he
          cases he
        · exact ⟨p, e, hp, he⟩
      obtain ⟨p, e, ⟨hp, he⟩, hlex⟩ := ih hmore
      refine ⟨p, e, ⟨List.mem_cons_of_mem path hp, he⟩, ?_⟩
      simp only [Files.sources, List.map_cons, lexEach, hread, LexedFile.ofRead] at hlex ⊢
      rw [hlex]
      rfl

/-! ### With workers and at least one path -/

variable {settings : Settings} (extra : List String) {jobs : Option Nat}

private theorem lexAll_snd (hpaths : paths ≠ []) (hjobs : 1 ≤ jobs.getD settings.jobs) :
    (lexAll settings extra jobs (files.sources paths)).2 =
      (lexEach (settings.namespacesWith extra) (files.sources paths)).2 := by
  have hsources : (files.sources paths).isEmpty = false := by
    simpa [Files.sources] using hpaths
  have hworkers : jobs.getD settings.jobs ≠ 0 := by omega
  simp [lexAll, Settings.effectiveJobs, hworkers, hsources]

/-- **All texts are read, in the order of their paths**, however many workers share them. -/
theorem lexAll_of_reads (hpaths : paths ≠ []) (hjobs : 1 ≤ jobs.getD settings.jobs)
    {text : String → String} (h : files.Reads paths text) :
    (lexAll settings extra jobs (files.sources paths)).2 =
      .ok (paths.map (lexed (settings.namespacesWith extra) text)) :=
  (lexAll_snd extra hpaths hjobs).trans (lexEach_of_reads h)

/-- **A path without a text is the fault of the whole**, whatever texts the other paths have. -/
theorem lexAll_of_unreadable (hpaths : paths ≠ []) (hjobs : 1 ≤ jobs.getD settings.jobs)
    (h : ∃ path e, files.Unreadable paths path e) :
    ∃ path e, files.Unreadable paths path e ∧
      (lexAll settings extra jobs (files.sources paths)).2 = .error (Fault.unreadable path e) := by
  obtain ⟨path, e, hunreadable, hlex⟩ := lexEach_of_unreadable h
  exact ⟨path, e, hunreadable, (lexAll_snd extra hpaths hjobs).trans hlex⟩

end Command

end Lexis
