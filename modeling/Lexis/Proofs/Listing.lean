import Lexis.Proofs.Division
import Lexis.Proofs.Sources
import Lexis.Proofs.JsonDumps

/-!
# Listings of sources

The command that lists tokens puts out dumps. As arrays, they stand on a line of their own each, and
since no array holds a line feed, the output can be cut at line feeds into one array for each
source, from which all that a dump shows can be read back.
-/

namespace Lexis

/-- The end of the input is the last token, wherever a text is divided. -/
private theorem Division.exists_tokens_eq (p : Position) (d : Division) :
    ∃ front span, d.tokens p = front ++ [Token.eof span] := by
  induction d generalizing p with
  | ending gap => exact ⟨[], _, rfl⟩
  | item gap x more ih =>
    obtain ⟨front, span, hmore⟩ := ih ((p.advance gap.text).advance x.text)
    exact ⟨x.token (p.advance gap.text) :: front, span, by rw [tokens, hmore]; rfl⟩

namespace Command

/-- A fault while the sources are read is the fault of the command, and nothing is put out. -/
private theorem tokens_of_error (request : TokensRequest) {settings : Settings} {sources : Sources}
    {fault : Fault}
    (h : (lexAll settings request.namespaces request.jobs sources).2 = .error fault) :
    (tokens request settings sources).out = "" ∧
      (tokens request settings sources).fault = some fault := by
  rcases hlex : lexAll settings request.namespaces request.jobs sources with ⟨remarks, result⟩
  rw [hlex] at h
  obtain rfl : result = .error fault := h
  simp only [tokens, hlex, and_self]

/-- When all texts have been read, their listings are put out one behind the other. -/
private theorem tokens_of_ok (request : TokensRequest) {settings : Settings} {sources : Sources}
    {found : List LexedFile}
    (h : (lexAll settings request.namespaces request.jobs sources).2 = .ok found) :
    (tokens request settings sources).fault = none ∧
      (tokens request settings sources).out =
        String.join (found.map (listing (request.format.getD settings.format) found.length)) := by
  rcases hlex : lexAll settings request.namespaces request.jobs sources with ⟨remarks, result⟩
  rw [hlex] at h
  obtain rfl : result = .ok found := h
  simp only [tokens, hlex, and_self]

/-- The command sees the tree of files and leaves it as it is. -/
private theorem perform_tokens (processors : Nat) (invocation : CommandLine.Invocation)
    (settings : Settings) (paths extra : List String) (format : Option Format) (files : Files) :
    (Program.perform processors { invocation with task := .tokens paths format extra } settings :
        StateM Files Outcome) files =
      (tokens ⟨invocation.verbose || settings.verbose, format, extra, invocation.jobs⟩ settings
        (files.sources paths), files) := by
  have hread := readSources_files paths files
  simp only [Program.perform, bind, StateT.bind, hread]
  rfl

/-- Arrays with a line feed behind each are cut at line feeds into the arrays, as there are no line
feeds in an array. -/
private theorem lines_arrays (streams : List (List Token)) :
    Text.lines (String.join (streams.map fun tokens => Dump.json tokens ++ "\n")).toList =
      streams.map fun tokens => (Dump.json tokens).toList := by
  have hout : (String.join (streams.map fun tokens => Dump.json tokens ++ "\n")).toList =
      (streams.map fun tokens => (Dump.json tokens).toList).flatMap (· ++ ['\n']) := by
    simp [String.toList_join, List.flatMap_map]
  rw [hout]
  refine Text.lines_flatMap fun l hl => ?_
  obtain ⟨tokens, -, rfl⟩ := List.mem_map.mp hl
  exact Dump.newline_not_mem_json tokens

private theorem mapM_readJson? (streams : List (List Token)) :
    (streams.map fun tokens => (Dump.json tokens).toList).mapM Dump.readJson? =
      some (streams.map fun tokens => tokens.map Token.entry) := by
  have hread : (Dump.readJson? ∘ fun tokens => (Dump.json tokens).toList) =
      fun tokens => pure (tokens.map Token.entry) := funext Dump.readJson?_json
  rw [List.mapM_map, hread, List.mapM_pure]
  rfl

/-- **Listings as arrays** are the dumps of the texts, in the order of their paths, and each is a
line of its own. -/
theorem tokens_json (request : TokensRequest) {settings : Settings} {paths : List String}
    {files : Files} {text : String → String} (hpaths : paths ≠ [])
    (hjobs : 1 ≤ request.jobs.getD settings.jobs)
    (hformat : request.format.getD settings.format = .json) (h : files.Reads paths text) :
    (tokens request settings (files.sources paths)).out =
      String.join ((paths.map fun path =>
        (tokenize (settings.namespacesWith request.namespaces) (text path)).tokens).map
          fun tokens => Dump.json tokens ++ "\n") := by
  have hlex := lexAll_of_reads request.namespaces hpaths hjobs h
  rw [(tokens_of_ok request hlex).2, hformat, List.map_map, List.map_map]
  rfl

end Command

/-- **Listings lose nothing.** In both forms, all entries of a dump can be read back, and dumps are
alike iff their entries are; the text has a line feed for each token and the array none. The command
that lists tokens sees the tree of files and leaves it as it is. If one of its paths holds no text,
nothing is put out and the fault is that of such a path. Otherwise it succeeds, and if arrays are
asked for, its output is cut at line feeds into one JSON array for each path, in order, from which
the entries of the text at this path are read back, up to the end of the input. -/
theorem listings_lossless :
    (Dump.Lossless Dump.text Dump.readText? ∧ Dump.Lossless Dump.json Dump.readJson? ∧
      ∀ tokens, (Dump.text tokens).toList.count '\n' = tokens.length ∧
        (Dump.json tokens).toList.count '\n' = 0) ∧
    ∀ (processors : Nat) (invocation : CommandLine.Invocation) (settings : Settings)
      (paths extra : List String) (format : Option Format) (files : Files), paths ≠ [] →
      1 ≤ invocation.jobs.getD settings.jobs →
      let names := settings.namespacesWith extra
      let run := (Program.perform processors { invocation with task := .tokens paths format extra }
        settings : StateM Files Outcome) files
      run.2 = files ∧
        ((∃ path e, files.Unreadable paths path e) →
          run.1.out = "" ∧ ∃ path e, files.Unreadable paths path e ∧
            run.1.fault = some (Fault.unreadable path e)) ∧
        ((¬ ∃ path e, files.Unreadable paths path e) → ∃ text, files.Reads paths text ∧
          run.1.fault = none ∧
          (format.getD settings.format = .json →
            let streams := paths.map fun path => (tokenize names (text path)).tokens
            run.1.out = String.join (streams.map fun tokens => Dump.json tokens ++ "\n") ∧
            Text.lines run.1.out.toList = streams.map (fun tokens => (Dump.json tokens).toList) ∧
            (Text.lines run.1.out.toList).mapM Dump.readJson? =
              some (streams.map fun tokens => tokens.map Token.entry) ∧
            ∀ tokens ∈ streams, Json.isWellFormed (Dump.json tokens) = true ∧
              ∃ front span, tokens = front ++ [Token.eof span])) := by
  refine ⟨⟨Dump.lossless_text, Dump.lossless_json, fun tokens => ⟨Dump.count_newline_text tokens,
    List.count_eq_zero_of_not_mem (Dump.newline_not_mem_json tokens)⟩⟩, ?_⟩
  intro processors invocation settings paths extra format files hpaths hjobs names run
  let request : Command.TokensRequest :=
    ⟨invocation.verbose || settings.verbose, format, extra, invocation.jobs⟩
  obtain ⟨hout, hfiles⟩ := Prod.ext_iff.mp
    (Command.perform_tokens processors invocation settings paths extra format files)
  have hout : run.1 = Command.tokens request settings (files.sources paths) := hout
  rw [hout]
  refine ⟨hfiles, fun hunreadable => ?_, fun hreadable => ?_⟩
  · obtain ⟨path, e, hpath, hlex⟩ := Command.lexAll_of_unreadable extra hpaths hjobs hunreadable
    obtain ⟨hnothing, hfault⟩ := Command.tokens_of_error request hlex
    exact ⟨hnothing, path, e, hpath, hfault⟩
  · obtain ⟨text, htext⟩ := Files.reads_of_not_unreadable hreadable
    have hlex := Command.lexAll_of_reads extra hpaths hjobs htext
    refine ⟨text, htext, (Command.tokens_of_ok request hlex).1, fun hjson => ?_⟩
    intro streams
    have harrays : (Command.tokens request settings (files.sources paths)).out =
        String.join (streams.map fun tokens => Dump.json tokens ++ "\n") :=
      Command.tokens_json request hpaths hjobs hjson htext
    rw [harrays, Command.lines_arrays]
    refine ⟨rfl, rfl, Command.mapM_readJson? streams, fun tokens htokens => ?_⟩
    obtain ⟨path, -, rfl⟩ := List.mem_map.mp htokens
    refine ⟨Dump.isWellFormed_json _, ?_⟩
    rw [(tokenize_eq names (text path)).1]
    exact Division.exists_tokens_eq _ _

/-- A string with a line feed in it, a text without tokens, and the string once more. -/
theorem listings_lossless_repeated_path :
    let files : Files :=
      { entries := [(["a"], .file "\"\n\"".toUTF8), (["b"], .file "".toUTF8)] }
    let invocation : CommandLine.Invocation :=
      ⟨false, false, none, none, .tokens ["a", "b", "a"] (some .json) []⟩
    let run := (Program.perform 1 invocation (.standard 1) : StateM Files Outcome) files
    run.2 = files ∧ (Text.lines run.1.out.toList).mapM Dump.readJson? =
      some [[⟨.string, "\n", 1, 1⟩, ⟨.eof, "", 2, 2⟩], [⟨.eof, "", 1, 1⟩],
        [⟨.string, "\n", 1, 1⟩, ⟨.eof, "", 2, 2⟩]] := by
  intro files invocation run
  obtain ⟨hfiles, -, hreadable⟩ := listings_lossless.2 1 invocation (.standard 1) ["a", "b", "a"] []
    (some .json) files (by decide) (by decide)
  obtain ⟨text, htext, -, hjson⟩ := hreadable (Files.not_unreadable (by decide +kernel))
  have ha : text "a" = "\"\n\"" := htext.eq_of_read (by decide) (by decide +kernel)
  have hb : text "b" = "" := htext.eq_of_read (by decide) (by decide +kernel)
  refine ⟨hfiles, (hjson rfl).2.2.1.trans ?_⟩
  simp only [List.map_cons, List.map_nil, ha, hb]
  decide +kernel

end Lexis
