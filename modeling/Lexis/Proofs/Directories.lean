import Lexis.Proofs.Storage

/-!
# Making directories

Directories are made from the path's end: if one cannot be made because something above it is
missing, those above are made first, and it is tried again (`makeDirsInward_cons`). However that
ends, **the tree has only grown**: directories were added where nothing was (`Grows`).

For paths that do not lead up it is known how it ends. The way of such a path is a list of places,
each below the one before, and nothing off the way is touched. The directories are made unless a
file stands in the way, so that a path can be written to **iff** its way starts in a directory, is
clear of files and ends neither with a dot, nor with a slash, nor at a directory (`writable_iff`).
-/

namespace Lexis

namespace Files

variable {files made : Files}

/-! ### What is made -/

/-- Directories were made where nothing was, and all else is as it was. -/
structure Grows (files made : Files) : Prop where
  working : made.working = files.working
  entries : ∀ place, made.entry? place = files.entry? place ∨
    files.entry? place = none ∧ made.entry? place = some .directory

namespace Grows

theorem refl (files : Files) : files.Grows files :=
  ⟨rfl, fun _ => .inl rfl⟩

/-- Directories can be made in turn. -/
theorem trans {more : Files} (h : files.Grows made) (h' : made.Grows more) : files.Grows more := by
  refine ⟨h'.working.trans h.working, fun place => ?_⟩
  rcases h.entries place with hsame | ⟨hnone, hmade⟩
  · rw [← hsame]
    exact h'.entries place
  · rcases h'.entries place with hsame | ⟨hnone', -⟩
    · exact .inr ⟨hnone, hsame.trans hmade⟩
    · rw [hmade] at hnone'
      cases hnone'

/-- What was there is there: no entry is lost, and none is replaced. -/
theorem entry? (h : files.Grows made) {place : Place} {entry : Entry}
    (hentry : files.entry? place = some entry) : made.entry? place = some entry := by
  rcases h.entries place with hsame | ⟨hnone, -⟩
  · exact hsame.trans hentry
  · rw [hentry] at hnone
    cases hnone

/-- The files are the same, with the same content at the same places. -/
theorem entry?_eq_file_iff (h : files.Grows made) {place : Place} {content : ByteArray} :
    made.entry? place = some (.file content) ↔ files.entry? place = some (.file content) := by
  rcases h.entries place with hsame | ⟨hnone, hmade⟩
  · rw [hsame]
  · simp [hnone, hmade]

theorem start (h : files.Grows made) (rooted : Bool) : made.start rooted = files.start rooted := by
  rw [Files.start, Files.start, h.working]

end Grows

/-- A directory is made in the one that the names above it lead to, if its name is new there. -/
private theorem makeDir_cons (files : Files) (rooted : Bool) (name : String) (above : List String) :
    files.makeDir ⟨rooted, name :: above⟩ =
      match files.locateDirectory rooted above.reverse with
      | .error e => .error e
      | .ok place =>
        if isFresh name && (files.entry? (place ++ [name])).isNone then
          .ok (files.set (place ++ [name]) .directory)
        else .error .alreadyExists := rfl

/-- A directory is made where nothing is, and nothing else is done. The names above lead to a
directory, and the last one is fresh. -/
private theorem makeDir_cases {path : Path.Parts} (h : files.makeDir path = .ok made) :
    ∃ name above place, path.inward = name :: above ∧ isFresh name = true ∧
      files.locateDirectory path.rooted path.parent.names = .ok place ∧
      files.entry? (place ++ [name]) = none ∧ made = files.set (place ++ [name]) .directory := by
  unfold makeDir at h
  split at h
  · cases h
  · next name above hinward =>
    split at h
    · cases h
    · next place hplace =>
      split_ifs at h with hnew
      rw [Bool.and_eq_true, Option.isNone_iff_eq_none] at hnew
      exact ⟨name, above, place, hinward, hnew.1, hplace, hnew.2, (Except.ok.inj h).symm⟩

/-- Making one directory adds a directory where nothing was. -/
private theorem grows_makeDir {path : Path.Parts} (h : files.makeDir path = .ok made) :
    files.Grows made := by
  obtain ⟨name, -, place, -, -, -, hnone, rfl⟩ := makeDir_cases h
  refine ⟨rfl, fun p => ?_⟩
  by_cases hp : p = place ++ [name]
  · rw [hp, entry?_set_self (by simp)]
    exact .inr ⟨hnone, rfl⟩
  · exact .inl (entry?_set_of_ne hp _)

/-- What comes of an attempt to make a directory that may be there. -/
def settled (files : Files) (path : Path.Parts) : Except DiskError Unit × Files :=
  match files.makeDir path with
  | .ok made => (.ok (), made)
  | .error e => (if files.isDirectory path then .ok () else .error e, files)

/-- A directory that cannot be made is as good as made, if there is one already: the failure is
dropped. -/
private theorem settleDir_files (files : Files) (path : Path.Parts)
    (outcome : Except DiskError Unit) :
    (Disk.settleDir path outcome : StateM Files (Except DiskError Unit)) files =
      match outcome with
      | .ok () => (.ok (), files)
      | .error e => (if files.isDirectory path then .ok () else .error e, files) := by
  have hdirectory : (Disk.isDirectory path : StateM Files Bool) files =
      (files.isDirectory path, files) := rfl
  cases outcome with
  | ok => rfl
  | error e =>
    simp only [Disk.settleDir, bind, StateT.bind, hdirectory]
    cases files.isDirectory path <;> rfl

private theorem makeDir_files (files : Files) (path : Path.Parts) :
    (Disk.makeDir path : StateM Files (Except DiskError Unit)) files =
      match files.makeDir path with
      | .ok made => (.ok (), made)
      | .error e => (.error e, files) := rfl

/-- **One step of making directories.** The directory itself is tried first; only if something above
it is missing, those above are made, and it is tried once more. -/
private theorem makeDirsInward_cons (files : Files) (rooted : Bool) (name : String)
    (above : List String) :
    (Disk.makeDirsInward rooted (name :: above) : StateM Files (Except DiskError Unit)) files =
      match files.makeDir ⟨rooted, name :: above⟩ with
      | .error .notFound =>
        match (Disk.makeDirsInward rooted above : StateM Files (Except DiskError Unit)) files with
        | (.error e, made) => (.error e, made)
        | (.ok (), made) => made.settled ⟨rooted, name :: above⟩
      | _ => files.settled ⟨rooted, name :: above⟩ := by
  have hsettled : ∀ files : Files, (do
      Disk.settleDir ⟨rooted, name :: above⟩ (← Disk.makeDir ⟨rooted, name :: above⟩) :
        StateM Files (Except DiskError Unit)) files = files.settled ⟨rooted, name :: above⟩ := by
    intro files
    simp only [bind, StateT.bind, makeDir_files, settled]
    cases files.makeDir ⟨rooted, name :: above⟩ <;> exact settleDir_files _ _ _
  rw [Disk.makeDirsInward]
  simp only [bind, StateT.bind, makeDir_files]
  rcases hmake : files.makeDir ⟨rooted, name :: above⟩ with e | made
  · cases e with
    | notFound =>
      rcases habove : (Disk.makeDirsInward rooted above :
        StateM Files (Except DiskError Unit)) files with ⟨_ | _, made⟩
      · simp only [StateT.bind, habove]
        rfl
      · simp only [StateT.bind, habove]
        exact hsettled made
    | _ =>
      simp only [settled, hmake]
      exact settleDir_files _ _ _
  · simp only [settled, hmake]
    exact settleDir_files _ _ _

/-- **What every attempt preserves is preserved by the whole**, whether it succeeds or not. By
induction on the names, the last first; each attempt is about one of the directories on the way. -/
private theorem makeDirsInward_induction {rooted : Bool} {inward : List String} {P : Files → Prop}
    (hfiles : P files)
    (hsettled : ∀ name above, name :: above <:+ inward → ∀ between, P between →
      P (between.settled ⟨rooted, name :: above⟩).2)
    {outcome : Except DiskError Unit}
    (h : (Disk.makeDirsInward rooted inward : StateM Files (Except DiskError Unit)) files =
      (outcome, made)) : P made := by
  induction inward generalizing outcome made with
  | nil =>
    cases h
    exact hfiles
  | cons name above ih =>
    have hlast := hsettled name above (List.suffix_refl _)
    have habove : ∀ n more, n :: more <:+ above → ∀ between, P between →
        P (between.settled ⟨rooted, n :: more⟩).2 := fun n more hmore =>
      hsettled n more (hmore.trans (List.suffix_cons _ _))
    rw [makeDirsInward_cons] at h
    split at h
    · split at h
      · next hmade =>
        cases h
        exact ih habove hmade
      · next between hbetween =>
        have hmade := hlast between (ih habove hbetween)
        rwa [h] at hmade
    · have hmade := hlast files hfiles
      rwa [h] at hmade

private theorem grows_settled (files : Files) (path : Path.Parts) :
    files.Grows (files.settled path).2 := by
  unfold settled
  split
  · next made hmade => exact grows_makeDir hmade
  · exact .refl files

/-- **Making directories adds directories**, however far it gets. -/
theorem grows_makeDirsInward {rooted : Bool} {inward : List String}
    {outcome : Except DiskError Unit}
    (h : (Disk.makeDirsInward rooted inward : StateM Files (Except DiskError Unit)) files =
      (outcome, made)) : files.Grows made := by
  refine makeDirsInward_induction (.refl files) (fun name above _ between hgrows => ?_) h
  exact hgrows.trans (grows_settled between _)

/-! ### The way of a path -/

/-- The names that lead on: all but `.`. -/
def onward (names : List String) : List String :=
  names.filter (· != ".")

private theorem onward_cons {name : String} (h : name ≠ ".") (names : List String) :
    onward (name :: names) = name :: onward names :=
  List.filter_cons_of_pos (bne_iff_ne.mpr h)

private theorem onward_concat {name : String} (h : name ≠ ".") (names : List String) :
    onward (names ++ [name]) = onward names ++ [name] := by
  rw [onward, List.filter_append]
  exact congrArg _ (onward_cons h [])

private theorem onward_concat_dot (names : List String) :
    onward (names ++ ["."]) = onward names := by
  rw [onward, List.filter_append]
  exact List.append_nil _

/-- The first names of a path lead over the first places of its way. -/
private theorem onward_isPrefix {names more : List String} (h : names <+: more) :
    onward names <+: onward more :=
  h.filter _

/-- There is a directory wherever the names lead through. -/
def Leads (files : Files) (here : Place) (names : List String) : Prop :=
  ∀ front, front <+: onward names → files.entry? (here ++ front) = some .directory

/-- No file stands in the way of the names. -/
def Clear (files : Files) (here : Place) (names : List String) : Prop :=
  ∀ front, front <+: onward names → ∀ content, files.entry? (here ++ front) ≠ some (.file content)

section Way

variable {here place : Place} {name : String} {names : List String}

private theorem Leads.entry?_here (h : files.Leads here names) :
    files.entry? here = some .directory := by
  simpa using h [] List.nil_prefix

private theorem leads_nil : files.Leads here [] ↔ files.entry? here = some .directory := by
  refine ⟨Leads.entry?_here, fun hhere front hfront => ?_⟩
  rw [List.prefix_nil.mp hfront, List.append_nil, hhere]

/-- Names lead through if the first one leads to a directory from which the others do. A dot is left
out, as it leads nowhere else. -/
private theorem leads_cons (h : name ≠ ".") : files.Leads here (name :: names) ↔
    files.entry? here = some .directory ∧ files.Leads (here ++ [name]) names := by
  simp only [Leads, onward_cons h, List.prefix_cons_iff]
  constructor
  · intro hleads
    refine ⟨by simpa using hleads [] (.inl rfl), fun front hfront => ?_⟩
    simpa using hleads (name :: front) (.inr ⟨front, rfl, hfront⟩)
  · rintro ⟨hhere, hleads⟩ front (rfl | ⟨front, rfl, hfront⟩)
    · simpa using hhere
    · simpa using hleads front hfront

/-- Names lead through to one more directory. -/
private theorem leads_concat (h : name ≠ ".") : files.Leads here (names ++ [name]) ↔
    files.Leads here names ∧ files.entry? (here ++ onward names ++ [name]) = some .directory := by
  simp only [Leads, onward_concat h, List.prefix_concat_iff]
  constructor
  · intro hleads
    refine ⟨fun front hfront => hleads front (.inr hfront), ?_⟩
    rw [List.append_assoc]
    exact hleads _ (.inl rfl)
  · rintro ⟨hleads, hlast⟩ front (rfl | hfront)
    · rwa [← List.append_assoc]
    · exact hleads front hfront

/-- Where there are directories there are no files. -/
theorem Leads.clear (h : files.Leads here names) : files.Clear here names := by
  intro front hfront content hfile
  rw [h front hfront] at hfile
  cases hfile

/-- Making directories neither clears a way nor blocks it. -/
private theorem Grows.clear_iff (h : files.Grows made) :
    made.Clear here names ↔ files.Clear here names := by
  simp only [Clear, ne_eq, h.entry?_eq_file_iff]

theorem Grows.leads (h : files.Grows made) (hleads : files.Leads here names) :
    made.Leads here names :=
  fun front hfront => h.entry? (hleads front hfront)

theorem Clear.tail (h : name ≠ ".") (hclear : files.Clear here (name :: names)) :
    files.Clear (here ++ [name]) names := by
  intro front hfront content
  rw [List.append_assoc]
  refine hclear (name :: front) ?_ content
  rw [onward_cons h]
  exact List.cons_prefix_cons.mpr ⟨rfl, hfront⟩

/-- No names can be followed from where no directory is. What is missing there is not a file, if the
way is clear. -/
private theorem follow_blocked (names : List String) (hhere : files.entry? here ≠ some .directory) :
    ¬ files.Leads here names ∧ ∃ e, files.follow here (names ++ ["."]) = .error e ∧
      (files.Clear here names → e = .notFound) := by
  obtain ⟨first, more, hnames⟩ : ∃ first more, names ++ ["."] = first :: more := by
    cases names with
    | nil => exact ⟨".", [], rfl⟩
    | cons name names => exact ⟨name, names ++ ["."], rfl⟩
  refine ⟨fun hleads => hhere hleads.entry?_here, ?_⟩
  rw [hnames, Files.follow]
  rcases hentry : files.entry? here with _ | _ | content
  · exact ⟨.notFound, rfl, fun _ => rfl⟩
  · exact absurd hentry hhere
  · refine ⟨.notDirectory, rfl, fun hclear => ?_⟩
    exact absurd (by simpa using hentry) (hclear [] List.nil_prefix content)

/-- **Where names lead** that do not lead up. They are followed iff there is a directory wherever
they lead through; otherwise something is missing, unless a file stands in the way. -/
private theorem follow_cases (files : Files) (here : Place) (h : ".." ∉ names) :
    (files.Leads here names ∧ files.follow here (names ++ ["."]) = .ok (here ++ onward names)) ∨
      (¬ files.Leads here names ∧ ∃ e, files.follow here (names ++ ["."]) = .error e ∧
        (files.Clear here names → e = .notFound)) := by
  induction names generalizing here with
  | nil =>
    by_cases hhere : files.entry? here = some .directory
    · exact .inl ⟨leads_nil.mpr hhere, by simp [Files.follow, hhere, onward]⟩
    · exact .inr (follow_blocked _ hhere)
  | cons name names ih =>
    obtain ⟨hname, hnames⟩ := not_or.mp (mt List.mem_cons.mpr h)
    by_cases hhere : files.entry? here = some .directory
    · by_cases hdot : name = "."
      · have hfollow : files.follow here (name :: names ++ ["."]) =
            files.follow here (names ++ ["."]) := by simp [Files.follow, hhere, hdot]
        rw [hfollow, hdot]
        exact ih here hnames
      · rcases hnext : files.entry? (here ++ [name]) with _ | entry
        · refine .inr ⟨fun hleads => ?_, .notFound, ?_, fun _ => rfl⟩
          · cases hnext.symm.trans ((leads_cons hdot).mp hleads).2.entry?_here
          · simp [Files.follow, hhere, hdot, Ne.symm hname, hnext]
        · have hfollow : files.follow here (name :: names ++ ["."]) =
              files.follow (here ++ [name]) (names ++ ["."]) := by
            simp [Files.follow, hhere, hdot, Ne.symm hname, hnext]
          rw [hfollow, leads_cons hdot, and_iff_right hhere, onward_cons hdot,
            List.append_cons here name (onward names)]
          refine (ih (here ++ [name]) hnames).imp_right ?_
          rintro ⟨hleads, e, he, hclear⟩
          exact ⟨hleads, e, he, fun hall => hclear (hall.tail hdot)⟩
    · exact .inr (follow_blocked _ hhere)

/-- Names can be followed to a directory iff they lead through directories, and where they lead is
known beforehand. -/
theorem follow_eq_ok_iff (h : ".." ∉ names) :
    files.follow here (names ++ ["."]) = .ok place ↔
      files.Leads here names ∧ place = here ++ onward names := by
  rcases follow_cases files here h with ⟨hleads, hok⟩ | ⟨hnot, e, he, -⟩
  · rw [hok, and_iff_right hleads, Except.ok.injEq, eq_comm]
  · rw [he]
    exact iff_of_false nofun fun hleads => hnot hleads.1

end Way

/-! ### Making the directories of a path -/

section Make

variable {rooted : Bool} {name : String} {above inward : List String}

/-- A path is one of a directory iff its names lead through directories, if none of them leads
back. -/
private theorem isDirectory_iff (h : ".." ∉ inward) :
    files.isDirectory ⟨rooted, inward⟩ = true ↔
      files.Leads (files.start rooted) inward.reverse := by
  have hfollow := follow_cases files (files.start rooted) (mt List.mem_reverse.mp h)
  have hnames : files.isDirectory ⟨rooted, inward⟩ =
      (files.follow (files.start rooted) (inward.reverse ++ ["."])).toOption.isSome := rfl
  rw [hnames]
  rcases hfollow with ⟨hleads, hok⟩ | ⟨hnot, e, he, -⟩
  · rw [hok]
    exact iff_of_true rfl hleads
  · rw [he]
    exact iff_of_false nofun hnot

/-- Where an attempt to make a directory succeeds, there is one: it was made, or it had been there
before. -/
private theorem leads_settled (h : ".." ∉ name :: above)
    (hmade : files.settled ⟨rooted, name :: above⟩ = (.ok (), made)) :
    made.Leads (files.start rooted) (name :: above).reverse := by
  unfold settled at hmade
  split at hmade
  · next hmake =>
    cases hmade
    have hgrows := grows_makeDir hmake
    obtain ⟨_, _, place, hinward, hfresh, hplace, -, rfl⟩ := makeDir_cases hmake
    cases hinward
    obtain ⟨hleads, rfl⟩ := (follow_eq_ok_iff (mt List.mem_reverse.mp fun hmem =>
      h (List.mem_cons_of_mem _ hmem))).mp hplace
    rw [List.reverse_cons, leads_concat (isFresh_iff.mp hfresh).1]
    exact ⟨hgrows.leads hleads, entry?_set_self (by simp) _⟩
  · obtain ⟨hok, rfl⟩ := Prod.mk.inj hmade
    split_ifs at hok with hdirectory
    exact (isDirectory_iff h).mp hdirectory

/-- What cannot be made in a directory is there as a directory, unless it is a file. A dot is the
directory itself. -/
private theorem isDirectory_of_not_new (h : ".." ∉ name :: above)
    (hleads : files.Leads (files.start rooted) above.reverse)
    (hclear : files.Clear (files.start rooted) (name :: above).reverse)
    (hold : ¬ (isFresh name = true ∧
      files.entry? (files.start rooted ++ onward above.reverse ++ [name]) = none)) :
    files.isDirectory ⟨rooted, name :: above⟩ = true := by
  rw [isDirectory_iff h, List.reverse_cons]
  by_cases hdot : name = "."
  · -- this is the directory above
    rw [hdot, Leads, onward_concat_dot]
    exact hleads
  · refine (leads_concat hdot).mpr ⟨hleads, ?_⟩
    rcases hentry : files.entry? (files.start rooted ++ onward above.reverse ++ [name]) with
      _ | _ | content
    · have hname : name ≠ ".." := fun heq => h (heq ▸ List.mem_cons_self)
      exact absurd ⟨isFresh_iff.mpr ⟨hdot, hname⟩, hentry⟩ hold
    · rfl
    · rw [List.reverse_cons, Clear, onward_concat hdot] at hclear
      rw [List.append_assoc] at hentry
      exact absurd hentry (hclear _ (List.prefix_refl _) content)

/-- A directory can be made in a directory, unless a file is in its place; and then nothing above it
is missing. -/
private theorem settled_of_leads (h : ".." ∉ name :: above)
    (hleads : files.Leads (files.start rooted) above.reverse)
    (hclear : files.Clear (files.start rooted) (name :: above).reverse) :
    files.makeDir ⟨rooted, name :: above⟩ ≠ .error .notFound ∧
      (files.settled ⟨rooted, name :: above⟩).1 = .ok () := by
  have habove : ".." ∉ above := fun hmem => h (List.mem_cons_of_mem _ hmem)
  have hlocate : files.locateDirectory rooted above.reverse =
      .ok (files.start rooted ++ onward above.reverse) :=
    (follow_eq_ok_iff (mt List.mem_reverse.mp habove)).mpr ⟨hleads, rfl⟩
  have hmake := makeDir_cons files rooted name above
  simp only [hlocate, Bool.and_eq_true, Option.isNone_iff_eq_none] at hmake
  rw [settled, hmake]
  by_cases hnew : isFresh name = true ∧
      files.entry? (files.start rooted ++ onward above.reverse ++ [name]) = none
  · rw [if_pos hnew]
    exact ⟨nofun, rfl⟩
  · rw [if_neg hnew]
    exact ⟨nofun, if_pos (isDirectory_of_not_new h hleads hclear hnew)⟩

/-- Where making directories succeeds, they are there, all along the way. The attempt that comes
last decides, with or without others in front of it. -/
private theorem leads_makeDirsInward (h : ".." ∉ inward)
    (hstart : files.entry? (files.start rooted) = some .directory) {made : Files}
    (hmade : (Disk.makeDirsInward rooted inward : StateM Files (Except DiskError Unit)) files =
      (.ok (), made)) : made.Leads (files.start rooted) inward.reverse := by
  cases inward with
  | nil =>
    cases hmade
    exact leads_nil.mpr hstart
  | cons name above =>
    rw [makeDirsInward_cons] at hmade
    split at hmade
    · split at hmade
      · cases hmade
      · next between hbetween =>
        have hleads := leads_settled h hmade
        rwa [(grows_makeDirsInward hbetween).start] at hleads
    · exact leads_settled h hmade

private theorem Clear.of_append {here : Place} {names more : List String}
    (h : files.Clear here (names ++ more)) : files.Clear here names :=
  fun front hfront => h front (hfront.trans (onward_isPrefix (List.prefix_append _ _)))

/-- **Directories are made** unless a file stands in the way. By induction from the last name
inward: if the directory above is missing, it is made first, which blocks nothing. -/
private theorem exists_makeDirsInward (h : ".." ∉ inward)
    (hstart : files.entry? (files.start rooted) = some .directory)
    (hclear : files.Clear (files.start rooted) inward.reverse) :
    ∃ made, (Disk.makeDirsInward rooted inward : StateM Files (Except DiskError Unit)) files =
      (.ok (), made) := by
  induction inward with
  | nil => exact ⟨files, rfl⟩
  | cons name above ih =>
    have habove : ".." ∉ above := fun hmem => h (List.mem_cons_of_mem _ hmem)
    have hbelow : files.Clear (files.start rooted) above.reverse := by
      rw [List.reverse_cons] at hclear
      exact hclear.of_append
    rw [makeDirsInward_cons]
    rcases follow_cases files (files.start rooted) (mt List.mem_reverse.mp habove)
      with ⟨hleads, -⟩ | ⟨-, e, he, hmissing⟩
    · obtain ⟨hne, hok⟩ := settled_of_leads h hleads hclear
      split
      · next hmake => exact absurd hmake hne
      · exact ⟨_, Prod.ext hok rfl⟩
    · -- something above is missing, and is made first
      have hmake : files.makeDir ⟨rooted, name :: above⟩ = .error .notFound := by
        have hlocate : files.locateDirectory rooted above.reverse = .error .notFound :=
          hmissing hbelow ▸ he
        rw [makeDir_cons, hlocate]
      obtain ⟨made, hmade⟩ := ih habove hbelow
      have hgrows := grows_makeDirsInward hmade
      have hleads := leads_makeDirsInward habove hstart hmade
      rw [← hgrows.start rooted] at hleads hclear
      obtain ⟨-, hok⟩ := settled_of_leads h hleads (hgrows.clear_iff.mpr hclear)
      simp only [hmake, hmade]
      exact ⟨_, Prod.ext hok rfl⟩

/-- Nothing is made where the way does not start in a directory, since every attempt fails there,
the first one included. -/
private theorem makeDirsInward_of_blocked
    (hstart : files.entry? (files.start rooted) ≠ some .directory) {outcome : Except DiskError Unit}
    (hmade : (Disk.makeDirsInward rooted inward : StateM Files (Except DiskError Unit)) files =
      (outcome, made)) : made = files := by
  refine makeDirsInward_induction (P := (· = files)) rfl ?_ hmade
  rintro name above - _ rfl
  unfold settled
  split
  · next hmake =>
    obtain ⟨_, _, place, -, -, hplace, -⟩ := makeDir_cases hmake
    obtain ⟨-, e, he, -⟩ := follow_blocked above.reverse hstart
    cases hplace.symm.trans he
  · rfl

/-- An attempt to make a directory touches the place of that directory only. -/
private theorem entry?_settled (h : ".." ∉ above) {place : Place}
    (hplace : place ≠ files.start rooted ++ onward (name :: above).reverse) :
    Files.entry? (files.settled ⟨rooted, name :: above⟩).2 place = files.entry? place := by
  unfold settled
  split
  · next made hmade =>
    obtain ⟨_, _, _, hinward, hfresh, hlocate, -, rfl⟩ := makeDir_cases hmade
    cases hinward
    obtain ⟨-, rfl⟩ := (follow_eq_ok_iff (mt List.mem_reverse.mp h)).mp hlocate
    rw [List.reverse_cons, onward_concat (isFresh_iff.mp hfresh).1, ← List.append_assoc] at hplace
    exact entry?_set_of_ne hplace _
  · rfl

/-- Nothing is made off the way: any place that is not on it holds what it held. By induction, as
each attempt touches one place. -/
private theorem entry?_makeDirsInward (h : ".." ∉ inward) {place : Place}
    (hplace : ∀ front, front <+: onward inward.reverse → place ≠ files.start rooted ++ front)
    {outcome : Except DiskError Unit}
    (hmade : (Disk.makeDirsInward rooted inward : StateM Files (Except DiskError Unit)) files =
      (outcome, made)) : made.entry? place = files.entry? place := by
  refine (makeDirsInward_induction (P := fun between => files.Grows between ∧
    between.entry? place = files.entry? place) ⟨.refl files, rfl⟩ ?_ hmade).2
  rintro name above hinward between ⟨hgrows, hsame⟩
  have habove : ".." ∉ above := fun hmem => h (hinward.subset (List.mem_cons_of_mem _ hmem))
  have hlast := hplace _ (onward_isPrefix (List.reverse_prefix.mpr hinward))
  rw [← hgrows.start rooted] at hlast
  exact ⟨hgrows.trans (grows_settled between _), (entry?_settled habove hlast).trans hsame⟩

end Make

/-! ### Writing to a path -/

/-- Where a path leads that does not lead up. -/
def target (files : Files) (path : String) : Place :=
  files.start (Path.isRooted path) ++ onward (Path.names path)

/-- A file can be put at the path, once the directories above it are made: the path ends with a
name, its way starts in a directory, no file stands in the way and no directory is at its end. -/
def Accepts (files : Files) (path : String) : Prop :=
  ∃ above name, Path.names path = above ++ [name] ∧ isFresh name = true ∧
    Path.asksDirectory path = false ∧
    files.entry? (files.start (Path.isRooted path)) = some .directory ∧
    files.Clear (files.start (Path.isRooted path)) above ∧
    files.entry? (files.target path) ≠ some .directory

section Write

variable {path text : String} {after : Files} {above : List String} {name : String}

/-- A path that ends with a name leads to this name in the directory above. -/
theorem target_eq (hnames : Path.names path = above ++ [name]) (hfresh : isFresh name = true) :
    files.target path = files.start (Path.isRooted path) ++ onward above ++ [name] := by
  rw [target, hnames, onward_concat (isFresh_iff.mp hfresh).1, List.append_assoc]

/-- **What is written, and when.** The directories above are all there, the path ends with a name
and not with a slash, and no directory is at its end; then the file is put there, and nothing else
is done. -/
theorem write_eq_ok_iff (h : ".." ∉ Path.names path) :
    files.write path text = .ok after ↔
      ∃ above name, Path.names path = above ++ [name] ∧ isFresh name = true ∧
        Path.asksDirectory path = false ∧
        files.Leads (files.start (Path.isRooted path)) above ∧
        files.entry? (files.target path) ≠ some .directory ∧
        after = files.set (files.target path) (.file text.toUTF8) := by
  have hfile : ∀ entry : Option Entry, entry.any Entry.isDirectory = false ↔
      entry ≠ some .directory := by
    rintro (_ | _ | content) <;> simp [Entry.isDirectory]
  constructor
  · intro hwrite
    obtain ⟨name, place, hlast, hasks, hfresh, hplace, hentry, hafter⟩ := write_cases hwrite
    obtain ⟨above, hnames⟩ := List.getLast?_eq_some_iff.mp hlast
    rw [hnames, List.dropLast_concat] at hplace
    have habove : ".." ∉ above := fun hmem => h (hnames ▸ List.mem_append_left _ hmem)
    obtain ⟨hleads, rfl⟩ := (follow_eq_ok_iff habove).mp hplace
    rw [← target_eq hnames hfresh] at hentry hafter
    exact ⟨above, name, hnames, hfresh, hasks, hleads, (hfile _).mp hentry, hafter⟩
  · rintro ⟨above, name, hnames, hfresh, hasks, hleads, hentry, rfl⟩
    have habove : ".." ∉ above := fun hmem => h (hnames ▸ List.mem_append_left _ hmem)
    have hlocate : files.locateDirectory (Path.isRooted path) above =
        .ok (files.start (Path.isRooted path) ++ onward above) :=
      (follow_eq_ok_iff habove).mpr ⟨hleads, rfl⟩
    rw [← hfile, target_eq hnames hfresh] at hentry
    rw [target_eq hnames hfresh]
    simpa [write, hnames, hlocate, hasks, hfresh] using hentry

/-- The names above the last one, as they are in the parts of a path: some dots are gone, but the
way is the same. -/
private theorem parent_parts (hnames : Path.names path = above ++ [name])
    (hfresh : isFresh name = true) :
    (Path.parts path).parent.rooted = Path.isRooted path ∧
      onward (Path.parts path).parent.names = onward above ∧
      ∀ n ∈ (Path.parts path).parent.inward, n ∈ above := by
  have hdot := (isFresh_iff.mp hfresh).1
  cases above with
  | nil =>
    have hparts : Path.parts path = ⟨Path.isRooted path, [name]⟩ := by
      simp [Path.parts, hnames, hdot]
    rw [hparts]
    exact ⟨rfl, rfl, nofun⟩
  | cons first more =>
    have hmore : (more ++ [name]).filter (· != ".") = onward more ++ [name] :=
      onward_concat hdot more
    -- the parts keep a first `.`, except in a rooted path; the way is the same
    by_cases hfirst : first = "." ∧ Path.isRooted path = true
    · have hparent : (Path.parts path).parent = ⟨true, (onward more).reverse⟩ := by
        simp [Path.parts, Path.Parts.parent, hnames, hfirst, hmore]
      rw [hparent, hfirst.1]
      refine ⟨hfirst.2.symm, ?_, fun n hn => ?_⟩
      · simp [Path.Parts.names, onward]
      · exact List.mem_cons_of_mem _ ((List.mem_filter.mp (List.mem_reverse.mp hn)).1)
    · have hparent : (Path.parts path).parent =
          ⟨Path.isRooted path, (first :: onward more).reverse⟩ := by
        simp [Path.parts, Path.Parts.parent, hnames, hmore, hfirst]
      rw [hparent]
      refine ⟨rfl, ?_, fun n hn => ?_⟩
      · simp [Path.Parts.names, onward, List.filter_cons]
      · exact (List.mem_cons.mp (List.mem_reverse.mp hn)).elim (fun heq => heq ▸ List.mem_cons_self)
          fun hmem => List.mem_cons_of_mem _ (List.mem_filter.mp hmem).1

/-- **A path can be written to iff it is accepted**, that is, as soon as the directories above it
are made nothing is missing. -/
theorem writable_iff (h : ".." ∉ Path.names path) : files.Writable path ↔ files.Accepts path := by
  have hparents : (Disk.makeParents path : StateM Files (Except DiskError Unit)) files =
      (Disk.makeDirsInward (Path.parts path).parent.rooted (Path.parts path).parent.inward :
        StateM Files (Except DiskError Unit)) files := rfl
  constructor
  · rintro ⟨made, text, after, hmade, hwrite⟩
    have hgrows : files.Grows made := grows_makeDirsInward hmade
    obtain ⟨above, name, hnames, hfresh, hasks, hleads, hentry, -⟩ := (write_eq_ok_iff h).mp hwrite
    rw [hgrows.start] at hleads
    rw [target, hgrows.start, ← target] at hentry
    refine ⟨above, name, hnames, hfresh, hasks, ?_, hgrows.clear_iff.mp hleads.clear,
      mt hgrows.entry? hentry⟩
    refine Classical.byContradiction fun hstart => hstart ?_
    -- with no directory to start in nothing is made, so the one that is there was there
    rw [hparents, (parent_parts hnames hfresh).1] at hmade
    exact makeDirsInward_of_blocked hstart hmade ▸ hleads.entry?_here
  · rintro ⟨above, name, hnames, hfresh, hasks, hstart, hclear, hentry⟩
    obtain ⟨hrooted, honward, hmem⟩ := parent_parts hnames hfresh
    have hinward : ".." ∉ (Path.parts path).parent.inward := fun hup =>
      h (hnames ▸ List.mem_append_left _ (hmem _ hup))
    have hway : (Path.parts path).parent.inward.reverse = (Path.parts path).parent.names := rfl
    rw [Clear, ← honward] at hclear
    obtain ⟨made, hmade⟩ := exists_makeDirsInward hinward hstart hclear
    have hgrows := grows_makeDirsInward hmade
    have hleads := leads_makeDirsInward hinward hstart hmade
    rw [hway, Leads, honward] at hleads
    -- the end of the path is one step further than the way above it
    have hsame : made.entry? (files.target path) = files.entry? (files.target path) := by
      refine entry?_makeDirsInward hinward (fun front hfront heq => ?_) hmade
      rw [target_eq hnames hfresh, List.append_assoc, List.append_cancel_left_eq] at heq
      rw [hway, honward, ← heq] at hfront
      have hlength := hfront.length_le
      rw [List.length_append, List.length_singleton] at hlength
      omega
    refine ⟨made, "", made.set (made.target path) (.file "".toUTF8), ?_,
      (write_eq_ok_iff h).mpr ⟨above, name, hnames, hfresh, hasks, ?_, ?_, rfl⟩⟩
    · rw [hparents, hrooted]
      exact hmade
    · rw [hgrows.start]
      exact hleads
    · rw [target, hgrows.start, ← target, hsame]
      exact hentry

end Write

end Files
end Lexis
