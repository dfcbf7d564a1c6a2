import Lexis.Command.Config
import Lexis.Proofs.Directories
import Lexis.Proofs.RoundTrip
import Mathlib.Data.List.Induction

/-!
# Creating settings damages nothing

The command that creates a settings file looks whether something is there, makes the directories
above it, and writes. It can stop at each point, and it **ends in one of three ways** (`Creation`):
it is refused, and nothing has happened; it fails, and at most directories were made; or the file
is written, and it is the only file that changed. The settings in it are then loaded as they were
written, and a second attempt is refused.

The path must not lead up. Directories are made before the file is written, so that `x/../y` leads
to `y` in the end even where there was no `x`, and so nothing at the path, to begin with.
-/

namespace Lexis

namespace Files

variable {files made after : Files} {path text : String}

/-! ### What files hold -/

/-- What the file at a place holds. -/
def content? (files : Files) (place : Place) : Option ByteArray :=
  match files.entry? place with
  | some (.file content) => some content
  | _ => none

private theorem content?_eq_some_iff {place : Place} {content : ByteArray} :
    files.content? place = some content ↔ files.entry? place = some (.file content) := by
  unfold content?
  split <;> simp_all

private theorem content?_set_of_ne {target place : Place} (h : place ≠ target) (entry : Entry) :
    Files.content? (files.set target entry) place = files.content? place := by
  rw [content?, entry?_set_of_ne h, content?]

/-- Making directories changes no file, and makes none. -/
private theorem Grows.content? (h : files.Grows made) (place : Place) :
    made.content? place = files.content? place := by
  refine Option.ext fun content => ?_
  rw [content?_eq_some_iff, content?_eq_some_iff, h.entry?_eq_file_iff]

/-- Whatever is in the tree is in a directory. -/
def IsTree (files : Files) : Prop :=
  ∀ place name, (files.entry? (place ++ [name])).isSome = true →
    files.entry? place = some .directory

/-- Whatever is in a tree is in directories, all the way up. By induction on the names from the last
one. -/
theorem IsTree.directory (h : files.IsTree) {place more : Place} (hmore : more ≠ [])
    (hthere : (files.entry? (place ++ more)).isSome = true) :
    files.entry? place = some .directory := by
  induction more using List.reverseRecOn with
  | nil => exact absurd rfl hmore
  | append_singleton more name ih =>
    rw [← List.append_assoc] at hthere
    have hlast := h _ _ hthere
    rcases more with _ | ⟨first, more⟩
    · rwa [List.append_nil] at hlast
    · exact ih nofun (by rw [hlast]; rfl)

/-! ### Where a path leads -/

/-- Where a path leads does not depend on the directories that are made. -/
theorem Grows.target (h : files.Grows made) (path : String) :
    made.target path = files.target path := by
  rw [Files.target, Files.target, h.start]

/-- A path leads to its end if all above it are directories and something is there, since one more
step is all that is left then. -/
private theorem locate_of_leads {above : List String} {name : String}
    (hnames : Path.names path = above ++ [name]) (hup : ".." ∉ Path.names path)
    (hfresh : isFresh name = true) (hasks : Path.asksDirectory path = false)
    (hleads : files.Leads (files.start (Path.isRooted path)) above)
    (hthere : (files.entry? (files.target path)).isSome = true) :
    files.locate path = .ok (files.target path) := by
  have habove : ".." ∉ above := fun hmem => hup (hnames ▸ List.mem_append_left _ hmem)
  have hpath : path.isEmpty = false := by
    rw [Bool.eq_false_iff]
    intro hempty
    rw [String.isEmpty_iff.mp hempty] at hnames
    exact List.append_ne_nil_of_right_ne_nil above (List.cons_ne_nil name []) hnames.symm
  have hsteps : Path.steps path = above ++ [name] := by
    rw [Path.steps, hasks, hnames]
    exact List.append_nil _
  rw [target_eq hnames hfresh] at hthere ⊢
  obtain ⟨hdirectory, hmore⟩ := follow_directory ((follow_eq_ok_iff habove).mpr ⟨hleads, rfl⟩)
  have hlast : Steps files (files.start (Path.isRooted path) ++ onward above) name _ :=
    ⟨hdirectory, .inr (.inr ⟨hfresh, hthere, rfl⟩)⟩
  rw [locate, hpath, hsteps]
  exact (hmore [name]).trans (hlast.follow [])

/-- **Only the file that is written changes**, and the path leads to it. The directories on the way
stay, as a file never takes the place of one. -/
theorem write_frame (hup : ".." ∉ Path.names path) (h : files.write path text = .ok after) :
    after.locate path = .ok (files.target path) ∧
      ∀ place, place ≠ files.target path → after.content? place = files.content? place := by
  obtain ⟨above, name, hnames, hfresh, hasks, hleads, hfile, rfl⟩ := (write_eq_ok_iff hup).mp h
  have hne : files.target path ≠ [] := by
    rw [target_eq hnames hfresh]
    exact List.append_ne_nil_of_right_ne_nil _ nofun
  refine ⟨locate_of_leads hnames hup hfresh hasks (fun front hfront => ?_) ?_,
    fun place hplace => content?_set_of_ne hplace _⟩
  · -- no directory on the way gives place to the file
    have hdirectory := hleads front hfront
    refine (entry?_set_of_ne (fun heq => hfile ?_) _).trans hdirectory
    rw [← heq]
    exact hdirectory
  · change (Files.entry? (files.set (files.target path) _) (files.target path)).isSome = true
    rw [entry?_set_self hne]
    rfl

/-- In a tree, nothing is at the end of a path that leads nowhere and can be written to: a file
there would have directories all above it, and the path would lead to it. -/
private theorem IsTree.content?_target (h : files.IsTree) (hup : ".." ∉ Path.names path)
    (haccepts : files.Accepts path) (hthere : files.isThere path = false) :
    files.content? (files.target path) = none := by
  obtain ⟨above, name, hnames, hfresh, hasks, -⟩ := haccepts
  by_contra hcontent
  obtain ⟨content, hcontent⟩ := Option.ne_none_iff_exists'.mp hcontent
  have hentry : (files.entry? (files.target path)).isSome = true := by
    rw [content?_eq_some_iff.mp hcontent]
    rfl
  have hleads : files.Leads (files.start (Path.isRooted path)) above := by
    rintro front ⟨rest, hrest⟩
    have hmore : rest ++ [name] ≠ [] := by simp
    refine h.directory hmore ?_
    rwa [← List.append_assoc, List.append_assoc _ front, hrest, ← target_eq hnames hfresh]
  rw [isThere, locate_of_leads hnames hup hfresh hasks hleads hentry] at hthere
  cases hthere

end Files

/-! ### Saving -/

namespace Settings

variable {processors : Nat} {files after : Files} {path : String}

private theorem toText_eq_ok_iff {s : Settings} {text : String} :
    s.toText = .ok text ↔ s.jobs < 2 ^ 63 ∧ text = String.ofList s.layout := by
  by_cases h : s.jobs < Toml.integerEnd
  · rw [toText_of_lt h, Except.ok.injEq, eq_comm, and_iff_right (show s.jobs < 2 ^ 63 from h)]
  · rw [toText, if_neg h]
    exact iff_of_false nofun fun hlt => h hlt.1

/-- The standard settings can be stored, as their namespaces are plain names. -/
private theorem storable_standard (hpos : 1 ≤ processors) (hlt : processors < 2 ^ 63) :
    (standard processors).Storable := by
  have hnames : ∀ n ∈ Namespaces.builtin, isNamespace n = true := by decide
  exact ⟨hpos, hlt, hnames⟩

/-- What saving does to a tree of files, step by step: directories are made, the document is written
out, and the file is put there. -/
private theorem save_files {s : Settings} : (save s path : StateM Files (Except Fault Unit)) files =
    match (Disk.makeParents path : StateM Files (Except DiskError Unit)) files with
    | (.error e, made) => (.error (.disk e), made)
    | (.ok (), made) =>
      match s.toText with
      | .error fault => (.error fault, made)
      | .ok text =>
        match made.write path text with
        | .error e => (.error (.disk e), made)
        | .ok after => (.ok (), after) := by
  have hwrite : ∀ (text : String) (made : Files),
      (Disk.write path text : StateM Files (Except DiskError Unit)) made =
        match made.write path text with
        | .error e => (.error e, made)
        | .ok after => (.ok (), after) := by
    intro text made
    change Files.commit (·.write path text) made = _
    rw [Files.commit]
    cases made.write path text <;> rfl
  simp only [save, bind, StateT.bind]
  rcases (Disk.makeParents path : StateM Files (Except DiskError Unit)) files with ⟨_ | _, made⟩
  · rfl
  · cases s.toText with
    | error fault => rfl
    | ok text =>
      simp only [StateT.bind, hwrite]
      cases made.write path text <;> rfl

/-- **Saving writes the document, or makes directories at most.** It fails only if there is no
document or the path cannot be written to. -/
theorem save_cases {s : Settings} {outcome : Except Fault Unit}
    (h : (save s path : StateM Files (Except Fault Unit)) files = (outcome, after)) :
    (∃ fault, outcome = .error fault ∧ (∀ reason, fault ≠ .validation reason) ∧
      ¬ (s.jobs < 2 ^ 63 ∧ files.Writable path) ∧ files.Grows after) ∨
    outcome = .ok () ∧ s.jobs < 2 ^ 63 ∧ ∃ made,
      (Disk.makeParents path : StateM Files (Except DiskError Unit)) files = (.ok (), made) ∧
      made.write path (String.ofList s.layout) = .ok after := by
  rw [save_files] at h
  split at h
  · next e made hmade =>
    cases h
    refine .inl ⟨_, rfl, nofun, ?_, Files.grows_makeDirsInward hmade⟩
    rintro ⟨-, _, _, _, hmade', -⟩
    cases hmade.symm.trans hmade'
  · next made hmade =>
    have hgrows := Files.grows_makeDirsInward hmade
    by_cases hlt : s.jobs < 2 ^ 63
    · rw [toText_eq_ok_iff.mpr ⟨hlt, rfl⟩] at h
      simp only at h
      split at h
      · next e he =>
        cases h
        refine .inl ⟨_, rfl, nofun, ?_, hgrows⟩
        rintro ⟨-, _, _, _, hmade', hwrite⟩
        cases hmade.symm.trans hmade'
        obtain ⟨_, hafter⟩ := Files.exists_write hwrite (String.ofList s.layout)
        cases he.symm.trans hafter
      · next hwrite =>
        cases h
        exact .inr ⟨rfl, hlt, made, hmade, hwrite⟩
    · have htext : s.toText = .error Fault.settingsUnwritable := if_neg hlt
      rw [htext] at h
      cases h
      exact .inl ⟨_, rfl, nofun, fun hok => hlt hok.1, hgrows⟩

end Settings

/-! ### Creating -/

namespace Command

variable {processors : Nat} {request : ConfigRequest} {files : Files}

/-- Where settings are to be created. -/
def ConfigRequest.place (request : ConfigRequest) : String :=
  request.path.getD Settings.fileName

/-- Something is in the way, and the request does not insist. -/
def ConfigRequest.IsRefused (request : ConfigRequest) (files : Files) : Prop :=
  files.isThere request.place = true ∧ request.force = false

/-- **The ways in which creating settings ends.** -/
inductive Creation (processors : Nat) (request : ConfigRequest) (files : Files) :
    Outcome → Files → Prop where
  /-- Something was there, and nothing was done. -/
  | refused (hrefused : request.IsRefused files) :
    Creation processors request files
      { fault := some (Fault.settingsExist request.place) } files
  /-- Nothing was written, but directories may have been made. -/
  | failed {fault : Fault} {after : Files} (hallowed : ¬ request.IsRefused files)
    (hfault : ∀ reason, fault ≠ .validation reason)
    (hwhy : ¬ (processors < 2 ^ 63 ∧ files.Writable request.place)) (hgrows : files.Grows after) :
    Creation processors request files { fault := some fault } after
  /-- The standard settings were written, after directories were made. -/
  | created {made after : Files} (hallowed : ¬ request.IsRefused files)
    (hlt : processors < 2 ^ 63)
    (hmade : (Disk.makeParents request.place : StateM Files (Except DiskError Unit)) files =
      (.ok (), made))
    (hwrite : made.write request.place (String.ofList (Settings.standard processors).layout) =
      .ok after) :
    Creation processors request files
      { out := "Created " ++ request.place ++ "\n"
        remarks := summary request.verbose "Wrote default configuration" } after

/-- What creating settings does to a tree of files: it is refused, or the standard settings are
saved. -/
private theorem initSettings_files :
    (initSettings processors request : StateM Files Outcome) files =
    if files.isThere request.place && !request.force then
      ({ fault := some (Fault.settingsExist request.place) }, files)
    else match ((Settings.standard processors).save request.place :
        StateM Files (Except Fault Unit)) files with
      | (.error fault, after) => ({ fault := some fault }, after)
      | (.ok (), after) =>
        ({ out := "Created " ++ request.place ++ "\n"
           remarks := summary request.verbose "Wrote default configuration" }, after) := by
  have hthere : (Disk.isThere request.place : StateM Files Bool) files =
      (files.isThere request.place, files) := rfl
  rw [ConfigRequest.place] at *
  simp only [initSettings, bind, StateT.bind, hthere]
  split_ifs
  · rfl
  · simp only [StateT.bind]
    rcases ((Settings.standard processors).save (request.path.getD Settings.fileName) :
      StateM Files (Except Fault Unit)) files with ⟨_ | _, after⟩ <;> rfl

private theorem isRefused_iff : request.IsRefused files ↔
    (files.isThere request.place && !request.force) = true := by
  simp [ConfigRequest.IsRefused]

/-- **Creating settings ends in one of these ways.** The command first asks whether it may, and then
saves; so the cases are those of saving and one more. -/
theorem creation_of_init {outcome : Outcome} {after : Files}
    (h : (initSettings processors request : StateM Files Outcome) files = (outcome, after)) :
    Creation processors request files outcome after := by
  rw [initSettings_files] at h
  split_ifs at h with hrefused
  · cases h
    exact .refused (isRefused_iff.mpr hrefused)
  · have hallowed := mt isRefused_iff.mp hrefused
    split at h
    · next hsave =>
      cases h
      obtain ⟨_, hfault, hkind, hwhy, hgrows⟩ | ⟨hok, -⟩ := Settings.save_cases hsave
      · cases hfault
        exact .failed hallowed hkind hwhy hgrows
      · cases hok
    · next hsave =>
      cases h
      obtain ⟨_, hfault, -⟩ | ⟨-, hlt, made, hmade, hwrite⟩ := Settings.save_cases hsave
      · cases hfault
      · exact .created hallowed hlt hmade hwrite

namespace Creation

variable {outcome : Outcome} {after : Files}

/-- A request that fails puts nothing out and changes no file; at most directories were made. -/
private theorem of_fault (h : Creation processors request files outcome after)
    (hfault : outcome.fault ≠ none) :
    outcome.out = "" ∧ ∀ place, after.content? place = files.content? place := by
  cases h with
  | refused => exact ⟨rfl, fun _ => rfl⟩
  | failed _ _ _ hgrows => exact ⟨rfl, hgrows.content?⟩
  | created => exact absurd rfl hfault

/-- A request makes no sense iff it is refused: no other failure is of this family. Failures of
saving come from the disk or from the format. -/
private theorem validation_iff (h : Creation processors request files outcome after) :
    (∃ reason, outcome.fault = some (.validation reason)) ↔ request.IsRefused files := by
  cases h with
  | refused hrefused => exact iff_of_true ⟨_, rfl⟩ hrefused
  | failed hallowed hfault =>
    refine iff_of_false ?_ hallowed
    rintro ⟨reason, hreason⟩
    exact hfault reason (Option.some.inj hreason)
  | created hallowed => exact iff_of_false nofun hallowed

/-- A request succeeds iff it is not refused and what it asks for is possible: settings with a
document, directories that can be made, and a path that takes a text. -/
private theorem fault_eq_none_iff (h : Creation processors request files outcome after)
    (hup : ".." ∉ Path.names request.place) :
    outcome.fault = none ↔
      ¬ request.IsRefused files ∧ processors < 2 ^ 63 ∧ files.Accepts request.place := by
  rw [← Files.writable_iff hup]
  cases h with
  | refused hrefused => exact iff_of_false nofun fun hall => hall.1 hrefused
  | failed _ _ hwhy => exact iff_of_false nofun fun hall => hwhy hall.2
  | created hallowed hlt hmade hwrite =>
    exact iff_of_true rfl ⟨hallowed, hlt, _, _, _, hmade, hwrite⟩

/-- A request that succeeds changes the file at its path, and no other. What else it does is to make
directories. -/
private theorem frame (h : Creation processors request files outcome after)
    (hup : ".." ∉ Path.names request.place) (hfault : outcome.fault = none) :
    after.locate request.place = .ok (files.target request.place) ∧
      ∀ place, place ≠ files.target request.place →
        after.content? place = files.content? place := by
  cases h with
  | refused => cases hfault
  | failed => cases hfault
  | created _ _ hmade hwrite =>
    have hgrows := Files.grows_makeDirsInward hmade
    obtain ⟨hlocate, hframe⟩ := Files.write_frame hup hwrite
    rw [hgrows.target] at hlocate hframe
    exact ⟨hlocate, fun place hplace => (hframe place hplace).trans (hgrows.content? place)⟩

/-- The settings that were created are loaded, whatever the number of processors is by then, as the
document says all of them. -/
theorem load (h : Creation processors request files outcome after) (hpos : 1 ≤ processors)
    (hfault : outcome.fault = none) (reader : Nat) :
    (Settings.load reader request.place : StateM Files (Except Fault Settings)) after =
      (.ok (Settings.standard processors), after) := by
  cases h with
  | refused => cases hfault
  | failed => cases hfault
  | created _ hlt _ hwrite =>
    rw [Settings.load_of_read (Files.read_of_write hwrite),
      Settings.ofText_layout reader (Settings.storable_standard hpos hlt)]

/-- In a tree, no file is lost if the request does not insist: the one that may have changed was not
there. -/
private theorem keeps (h : Creation processors request files outcome after)
    (hup : ".." ∉ Path.names request.place) (htree : files.IsTree)
    (hforce : request.force = false) {place : Place} {content : ByteArray}
    (hcontent : files.content? place = some content) : after.content? place = some content := by
  by_cases hfault : outcome.fault = none
  · -- the one file that may have changed was not there
    obtain ⟨hallowed, -, haccepts⟩ := (h.fault_eq_none_iff hup).mp hfault
    have hthere : files.isThere request.place = false :=
      Bool.eq_false_iff.mpr fun hthere => hallowed ⟨hthere, hforce⟩
    have hplace : place ≠ files.target request.place := by
      rintro rfl
      rw [htree.content?_target hup haccepts hthere] at hcontent
      cases hcontent
    rw [(h.frame hup hfault).2 place hplace, hcontent]
  · rw [(h.of_fault hfault).2 place, hcontent]

end Creation

/-- **Creating settings damages no file**, if the path does not lead up. If the command fails, no
file holds anything else than before and nothing is put out. It fails as a request that makes no
sense iff something is at the path and the request does not insist. If it succeeds, only the file
at the path has changed, and the output says that it was created; the standard settings are loaded
from there, if the machine has a processor, and another attempt that does not insist is refused and
changes nothing. It succeeds iff it is not refused, the number of processors can be written and the
path accepts a file. In a tree, a request that does not insist leaves every file as it is. -/
theorem init_spares_files {processors : Nat} {request : ConfigRequest} {settings : Settings}
    {files after : Files} {outcome : Outcome} (hinit : request.init = true)
    (hup : ".." ∉ Path.names request.place)
    (hran : (config processors request settings : StateM Files Outcome) files = (outcome, after)) :
    (outcome.fault ≠ none →
      outcome.out = "" ∧ ∀ place, after.content? place = files.content? place) ∧
    ((∃ reason, outcome.fault = some (.validation reason)) ↔
      files.isThere request.place = true ∧ request.force = false) ∧
    (outcome.fault = none →
      outcome.out = "Created " ++ request.place ++ "\n" ∧
      after.locate request.place = .ok (files.target request.place) ∧
      (∀ place, place ≠ files.target request.place →
        after.content? place = files.content? place) ∧
      (1 ≤ processors → ∀ reader,
        (Settings.load reader request.place : StateM Files (Except Fault Settings)) after =
          (.ok (Settings.standard processors), after)) ∧
      ∀ others, (config processors { request with force := false } others :
          StateM Files Outcome) after =
        ({ fault := some (Fault.settingsExist request.place) }, after)) ∧
    (outcome.fault = none ↔ ¬ (files.isThere request.place = true ∧ request.force = false) ∧
      processors < 2 ^ 63 ∧ files.Accepts request.place) ∧
    (files.IsTree → request.force = false → ∀ place content,
      files.content? place = some content → after.content? place = some content) := by
  have hconfig : (config processors request settings : StateM Files Outcome) =
      initSettings processors request := if_pos hinit
  rw [hconfig] at hran
  have hends := creation_of_init hran
  refine ⟨hends.of_fault, hends.validation_iff, fun hfault => ?_, hends.fault_eq_none_iff hup,
    fun htree hforce place content => hends.keeps hup htree hforce⟩
  obtain ⟨hlocate, hframe⟩ := hends.frame hup hfault
  refine ⟨?_, hlocate, hframe, fun hpos => hends.load hpos hfault, fun others => ?_⟩
  · cases hends with
    | created => rfl
    | _ => cases hfault
  · have hagain : (config processors { request with force := false } others :
        StateM Files Outcome) = initSettings processors { request with force := false } :=
      if_pos hinit
    have hrefused : ({ request with force := false } : ConfigRequest).IsRefused after := by
      refine ⟨?_, rfl⟩
      change after.isThere request.place = true
      rw [Files.isThere, hlocate]
      rfl
    rw [hagain, initSettings_files]
    exact if_pos (isRefused_iff.mp hrefused)

/-- A file beside the working directory stays when settings are created below a directory that is
not there yet, and the same request is refused afterwards. -/
theorem init_spares_files_fresh_directory :
    let files : Files :=
      { entries := [(["d"], .directory), (["a"], .file "x".toUTF8)], working := ["d"] }
    let request : ConfigRequest := { init := true, path := some "e/m" }
    let ran := (config 4 request (.standard 2) : StateM Files Outcome) files
    ran.1.fault = none ∧ ran.1.out = "Created e/m\n" ∧
      ran.2.content? ["a"] = some "x".toUTF8 ∧
      (Settings.load 2 "e/m" : StateM Files (Except Fault Settings)) ran.2 =
        (.ok (Settings.standard 4), ran.2) ∧
      (config 4 request (.standard 4) : StateM Files Outcome) ran.2 =
        ({ fault := some (Fault.settingsExist "e/m") }, ran.2) := by
  intro files request ran
  have hinit : request.init = true := rfl
  have hup : ".." ∉ Path.names request.place := by decide
  have hran : (config 4 request (.standard 2) : StateM Files Outcome) files = (ran.1, ran.2) := rfl
  obtain ⟨-, -, hcreated, hiff, -⟩ := init_spares_files hinit hup hran
  have hclear : files.Clear ["d"] ["e"] := by
    intro front hfront content hfile
    obtain rfl | rfl : front = [] ∨ front = ["e"] := by
      simpa [Files.onward, List.prefix_cons_iff] using hfront
    · cases hfile
    · cases hfile
  have haccepts : files.Accepts request.place := by
    have hstart : files.start (Path.isRooted request.place) = ["d"] := by decide
    have htarget : files.target request.place = ["d", "e", "m"] := by decide
    refine ⟨["e"], "m", by decide, by decide, by decide, ?_⟩
    rw [hstart, htarget]
    refine ⟨rfl, hclear, fun hdirectory => ?_⟩
    cases hdirectory
  have hfault : ran.1.fault = none := hiff.mpr ⟨by decide, by decide, haccepts⟩
  obtain ⟨hout, -, hframe, hload, hagain⟩ := hcreated hfault
  exact ⟨hfault, hout, hframe ["a"] (by decide), hload (by decide) 2, hagain (.standard 4)⟩

/-- A path that leads up can make its own way: here `y` is lost, without insisting. -/
example :
    let files : Files := { entries := [(["y"], .file "x".toUTF8)] }
    let ran := (config 4 { init := true, path := some "x/../y" } (.standard 4) :
      StateM Files Outcome) files
    files.content? ["y"] = some "x".toUTF8 ∧ ran.1.fault = none ∧
      ran.2.content? ["y"] ≠ some "x".toUTF8 := by
  decide +kernel

end Command

end Lexis
