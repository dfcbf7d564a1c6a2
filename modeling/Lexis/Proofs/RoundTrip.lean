import Lexis.Proofs.Bounds
import Lexis.Proofs.Layout
import Lexis.Proofs.Namespaces
import Lexis.Proofs.Storage
import Lexis.Settings.Store
import Mathlib.Algebra.Group.Nat.Defs

/-!
# Settings survive being stored

Settings that are to be written down and settings that were read from a file are of the same kind
(`Storable`), and for these, reading undoes writing (`ofText_layout`). The document is taken line by
line, as it is laid out (`layout`); what it says is then a table of four keys (`entriesOf`),
whatever the machine.

That a file gives nothing but storable settings does not follow from the check of settings alone: it
does not ask whether the number of workers can be **written**. This is a matter of how numbers are
read (`fit_read?`), and of the machine where the file gives no number.
-/

namespace Lexis

namespace Settings

open Toml Toml.Document

/-! ### Settings that can be stored -/

/-- What a settings file can say: at least one worker, not too many for the format, and plain names
only. -/
structure Storable (s : Settings) : Prop where
  /-- There is a worker. -/
  pos : 1 ≤ s.jobs
  /-- The number of workers can be written. -/
  lt : s.jobs < integerEnd
  /-- Every namespace is a plain name. -/
  names : ∀ n ∈ s.namespaces, isNamespace n = true

private theorem validate_of_storable {s : Settings} (h : s.Storable) : s.validate = .ok s :=
  validate_eq_ok_iff.mpr ⟨rfl, Nat.pos_iff_ne_zero.mp h.pos, h.names⟩

/-- A name can be written between quotation marks without an escape. -/
private theorem isPlain_of_isName {cs : List Char} (h : CharClass.isName cs = true) :
    cs ≠ [] ∧ ∀ c ∈ cs, IsPlain c := by
  refine ⟨?_, fun c hc => isPlain_of_isNameContinue (Lexeme.all_of_isName h c hc)⟩
  rintro rfl
  cases h

theorem Storable.plain {s : Settings} (h : s.Storable) : Plain s.namespaces :=
  fun n hn => isPlain_of_isName (h.names n hn)

private theorem plain_word (f : Format) : Plain [f.word] := by
  intro w hw
  obtain rfl := List.mem_singleton.mp hw
  cases f <;> exact isPlain_of_isName (by decide +kernel)

private theorem ofWord?_word (f : Format) : Format.ofWord? f.word = some f := by
  cases f <;> rfl

/-! ### The document -/

/-- The lines of a document with the given settings. -/
def layout (s : Settings) : List Char :=
  pairLine "verbose" (if s.verbose then "true" else "false").toList ++
    (pairLine "jobs" (Nat.toDigits 10 s.jobs) ++ '\n' ::
      (headerLine "lexer" ++ (pairLine "namespaces" (writeList s.namespaces).toList ++ '\n' ::
        (headerLine "output" ++ (pairLine "format" (writeString s.format.word).toList ++ [])))))

/-- The only settings without a document are those with too many workers for a whole number of the
format. -/
theorem toText_of_lt {s : Settings} (h : s.jobs < integerEnd) :
    s.toText = .ok (String.ofList s.layout) := by
  unfold toText
  rw [if_pos h, Except.ok.injEq, ← String.toList_inj]
  unfold layout
  simp [pairLine, headerLine]

/-- What a document with the given settings says. -/
def entriesOf (s : Settings) : Entries :=
  [("verbose", .boolean s.verbose), ("jobs", .integer s.jobs),
    ("lexer", .table .header [("namespaces", .array (s.namespaces.map .string))]),
    ("output", .table .header [("format", .string s.format.word)])]

/-- **The document is read back**: one line for a pair and one for a header, each adding its entry
to the tables that are there already. -/
theorem read?_layout {s : Settings} (h : s.Storable) :
    Toml.read? (String.ofList s.layout) = some s.entriesOf := by
  obtain ⟨limit, hlimit⟩ : ∃ k, s.layout.length + 1 = k + 9 := by
    refine ⟨s.layout.length - 8, ?_⟩
    unfold layout
    simp [pairLine, headerLine]
  have hmark : dropMark s.layout = s.layout := rfl
  have hword : (writeString s.format.word).toList = writeText s.format.word.toList :=
    String.toList_ofList
  rw [Toml.read?, String.toList_ofList, hmark, hlimit]
  unfold layout
  rw [lines?_pairLine (by decide) (denotes_boolean s.verbose) (add_root rfl _),
    lines?_pairLine (by decide) (denotes_toDigits h.pos h.lt) (add_root rfl _), lines?_newline,
    lines?_headerLine (by decide) (openTable_root rfl),
    lines?_pairLine (by decide) (denotes_list h.plain) (add_table rfl rfl _), lines?_newline,
    lines?_headerLine (by decide) (openTable_root rfl), hword,
    lines?_pairLine (by decide) (denotes_text (plain_word s.format)) (add_table rfl rfl _)]
  rfl

private theorem decodeStrings_map (names : List String) :
    decodeStrings (.array (names.map .string)) = some names := by
  have hdecode : decodeString ∘ Value.string = fun name => pure (id name) := rfl
  rw [decodeStrings]
  simp only [arrayItems?, Option.bind_eq_bind, Option.bind_some]
  rw [List.mapM_map, hdecode, List.mapM_pure, List.map_id]
  rfl

/-- The entries say what the settings are, and the number of processors is not asked for, as the
number of workers is among them. -/
private theorem ofEntries?_entriesOf (processors : Nat) (s : Settings) :
    ofEntries? processors s.entriesOf = some s := by
  have hverbose : s.entriesOf.get? "verbose" = some (.boolean s.verbose) := rfl
  have hjobs : s.entriesOf.get? "jobs" = some (.integer s.jobs) := rfl
  have hlexer : s.entriesOf.get? "lexer" =
      some (.table .header [("namespaces", .array (s.namespaces.map .string))]) := rfl
  have houtput : s.entriesOf.get? "output" =
      some (.table .header [("format", .string s.format.word)]) := rfl
  have hnames : Entries.get? [("namespaces", .array (s.namespaces.map .string))] "namespaces" =
      some (.array (s.namespaces.map .string)) := rfl
  have hformat : Entries.get? [("format", .string s.format.word)] "format" =
      some (.string s.format.word) := rfl
  simp [ofEntries?, hverbose, hjobs, hlexer, houtput, hnames, hformat, settingOr, decodeBool,
    decodeNat, groupSetting, decodeStrings_map, decodeFormat, ofWord?_word]

/-- **Settings are read back from their document**, and they are accepted. -/
theorem ofText_layout (processors : Nat) {s : Settings} (h : s.Storable) :
    ofText processors (String.ofList s.layout) = .ok s := by
  rw [ofText, read?_layout h, Option.bind_some, ofEntries?_entriesOf]
  exact validate_of_storable h

/-! ### What a document can say -/

/-- The number of workers comes from the document, where it is within bounds, or it is the number of
processors. -/
private theorem jobs_lt_of_ofEntries? {processors : Nat} (hprocessors : processors < integerEnd)
    {root : Entries} (hroot : root.Fit) {s : Settings} (h : ofEntries? processors root = some s) :
    s.jobs < integerEnd := by
  simp only [ofEntries?, Option.bind_eq_bind, Option.bind_eq_some_iff] at h
  obtain ⟨_, -, jobs, hjobs, _, -, _, -, hs⟩ := h
  cases hs
  cases hget : root.get? "jobs" with
  | none =>
    rw [hget] at hjobs
    cases hjobs
    exact hprocessors
  | some value =>
    rw [hget] at hjobs
    have hfits := hroot "jobs" value hget
    cases value with
    | integer n =>
      simp only [settingOr, decodeNat] at hjobs
      split_ifs at hjobs with hn
      cases hjobs
      exact Int.toNat_lt hn |>.mpr hfits
    | _ => cases hjobs

/-- **Settings from a text can be stored.** A text that is read without an error has passed the
check of the settings, and its numbers are within bounds. -/
theorem storable_of_ofText {processors : Nat} (hprocessors : processors < integerEnd)
    {text : String} {s : Settings} (h : ofText processors text = .ok s) : s.Storable := by
  unfold ofText at h
  split at h
  · next found hfound =>
    obtain ⟨rfl, hjobs, hnames⟩ := validate_eq_ok_iff.mp h
    obtain ⟨root, hroot, hentries⟩ := Option.bind_eq_some_iff.mp hfound
    exact ⟨Nat.pos_of_ne_zero hjobs, jobs_lt_of_ofEntries? hprocessors (fit_read? hroot) hentries,
      hnames⟩
  · cases h

/-! ### On disk -/

section Disk

variable {processors : Nat} {files : Files} {path : String}

/-- Loading looks at the tree and leaves it as it is. -/
private theorem load_files : (load processors path : StateM Files (Except Fault Settings)) files =
    (if files.isThere path then
      match files.read path with
      | .ok text => ofText processors text
      | .error e => .error (.disk e)
    else .error (Fault.settingsMissing path), files) := by
  have hthere : (Disk.isThere path : StateM Files Bool) files = (files.isThere path, files) := rfl
  have hread : (Disk.read path : StateM Files (Except DiskError String)) files =
      (files.read path, files) := rfl
  simp only [load, bind, StateT.bind, hthere]
  cases files.isThere path with
  | false => rfl
  | true =>
    simp only [if_true, StateT.bind, hread]
    cases files.read path <;> rfl

private theorem isThere_of_read {text : String} (h : files.read path = .ok text) :
    files.isThere path = true := by
  unfold Files.read at h
  split at h
  · cases h
  · next place hplace => rw [Files.isThere, hplace]; rfl

/-- Settings are loaded from the text at the path. -/
theorem load_of_read {text : String} (h : files.read path = .ok text) :
    (load processors path : StateM Files (Except Fault Settings)) files =
      (ofText processors text, files) := by
  rw [load_files, isThere_of_read h, h]
  rfl

/-- Settings that are loaded come from a text that could be read at the path. -/
private theorem exists_read_of_load {s : Settings} {after : Files}
    (h : (load processors path : StateM Files (Except Fault Settings)) files = (.ok s, after)) :
    ∃ text, files.read path = .ok text ∧ ofText processors text = .ok s := by
  rw [load_files] at h
  obtain ⟨hload, -⟩ := Prod.mk.inj h
  split_ifs at hload
  split at hload
  · next text htext => exact ⟨text, htext, hload⟩
  · cases hload

/-- Settings are saved where a text can be put, once the directories above are there. -/
private theorem save_of_write {s : Settings} {text : String} (htext : s.toText = .ok text)
    {made after : Files}
    (hmade : (Disk.makeParents path : StateM Files (Except DiskError Unit)) files = (.ok (), made))
    (hwrite : made.write path text = .ok after) :
    (save s path : StateM Files (Except Fault Unit)) files = (.ok (), after) := by
  have hwritten : (Disk.write path text : StateM Files (Except DiskError Unit)) made =
      (.ok (), after) := by
    change Files.commit (·.write path text) made = _
    rw [Files.commit, hwrite]
  simp only [save, bind, StateT.bind, hmade, htext, hwritten]
  rfl

/-- **What is saved is loaded**: the directories above the path are made, the document is written
there, and a text that is written can be read. -/
theorem load_save {s : Settings} (h : s.Storable) (hpath : files.Writable path) :
    ∃ saved, (save s path : StateM Files (Except Fault Unit)) files = (.ok (), saved) ∧
      ∀ processors, (load processors path : StateM Files (Except Fault Settings)) saved =
        (.ok s, saved) := by
  obtain ⟨made, text, after, hmade, hwrite⟩ := hpath
  obtain ⟨saved, hsaved⟩ := Files.exists_write hwrite (String.ofList s.layout)
  refine ⟨saved, save_of_write (toText_of_lt h.lt) hmade hsaved, fun processors => ?_⟩
  rw [load_of_read (Files.read_of_write hsaved), ofText_layout processors h]

end Disk

end Settings

/-- **Settings survive being stored.** Settings with at least one worker, not too many workers for
the format and only plain names as namespaces have a document, and whatever the machine, they are
loaded from any path where this document is. Settings that were loaded from a file, whatever it
holds, are such settings, as long as the number of processors itself can be written; so they can be
saved wherever a text can be put, and are loaded from there as they were. -/
theorem settings_round_trip :
    (∀ s : Settings, 1 ≤ s.jobs → s.jobs < 2 ^ 63 →
      (∀ n ∈ s.namespaces, Settings.isNamespace n = true) →
      ∃ text, s.toText = .ok text ∧ ∀ (processors : Nat) (files : Files) (path : String),
        files.read path = .ok text →
          (Settings.load processors path : StateM Files (Except Fault Settings)) files =
            (.ok s, files)) ∧
    ∀ (processors : Nat) (files after : Files) (path : String) (s : Settings),
      processors < 2 ^ 63 →
      (Settings.load processors path : StateM Files (Except Fault Settings)) files =
        (.ok s, after) →
      (1 ≤ s.jobs ∧ s.jobs < 2 ^ 63 ∧ ∀ n ∈ s.namespaces, Settings.isNamespace n = true) ∧
        ∀ (tree : Files) (other : String), tree.Writable other →
          ∃ saved, (Settings.save s other : StateM Files (Except Fault Unit)) tree =
              (.ok (), saved) ∧
            ∀ processors, (Settings.load processors other :
              StateM Files (Except Fault Settings)) saved = (.ok s, saved) := by
  refine ⟨fun s hpos hlt hnames => ?_, fun processors files after path s hprocessors hload => ?_⟩
  · have hs : s.Storable := ⟨hpos, hlt, hnames⟩
    refine ⟨String.ofList s.layout, Settings.toText_of_lt hlt, fun processors files path h => ?_⟩
    rw [Settings.load_of_read h, Settings.ofText_layout processors hs]
  · obtain ⟨text, -, htext⟩ := Settings.exists_read_of_load hload
    have hs : s.Storable := Settings.storable_of_ofText hprocessors htext
    exact ⟨⟨hs.pos, hs.lt, hs.names⟩, fun tree other hother => Settings.load_save hs hother⟩

/-- The largest number of workers, with a name that is listed twice; and a file that gives a group
as an array and leaves all else open, saved again below a directory that is not there yet. -/
theorem settings_round_trip_array :
    let full : Settings := ⟨true, 2 ^ 63 - 1, ["é", "a", "é"], .json⟩
    let given : Settings := ⟨false, 4, ["é"], .text⟩
    let files : Files := { entries := [(["a"], .file "lexer = [[\"é\"]]".toUTF8)] }
    (∃ text, full.toText = .ok text ∧ ∀ (processors : Nat) (files : Files) (path : String),
      files.read path = .ok text →
        (Settings.load processors path : StateM Files (Except Fault Settings)) files =
          (.ok full, files)) ∧
    (Settings.load 4 "a" : StateM Files (Except Fault Settings)) files = (.ok given, files) ∧
    ∃ saved, (Settings.save given "d/b" : StateM Files (Except Fault Unit)) files =
        (.ok (), saved) ∧
      ∀ processors, (Settings.load processors "d/b" :
        StateM Files (Except Fault Settings)) saved = (.ok given, saved) := by
  intro full given files
  have hnames : ∀ n ∈ full.namespaces, Settings.isNamespace n = true := by decide +kernel
  have hload : (Settings.load 4 "a" : StateM Files (Except Fault Settings)) files =
      (.ok given, files) := by
    have hread : files.read "a" = .ok "lexer = [[\"é\"]]" := by decide +kernel
    have htext : Settings.ofText 4 "lexer = [[\"é\"]]" = .ok given := by decide +kernel
    rw [Settings.load_of_read hread, htext]
  have hwritable : files.Writable "d/b" := ⟨files.set ["d"] .directory, "", _, rfl, rfl⟩
  obtain ⟨hfirst, hsecond⟩ := settings_round_trip
  refine ⟨hfirst full (by decide) (by decide) hnames, hload, ?_⟩
  exact (hsecond 4 files files "a" given (by decide) hload).2 files "d/b" hwritable

end Lexis
