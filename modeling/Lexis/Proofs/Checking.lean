import Lexis.Proofs.Reports
import Lexis.Proofs.Sources
import Mathlib.Algebra.GroupWithZero.Nat

/-!
# Checking reports exactly the errors of the streams

The errors of a text are told by its tokens and by what it ends in (`lexicalErrors`), without a look
at the reports. Checking counts reports, and takes whatever is no error for a warning; since a
reading reports errors and warnings **only** (`level_of_mem_diagnostics`), both counts are right
(`report_lexed`), and the command fails iff some text has an error (`check_exact`).
-/

namespace Lexis

/-! ### The errors of a text -/

/-- The token is an error: a character that starts no token, or a base mark without digits. -/
def Token.isFaulty (t : Token) : Bool :=
  t.kind == .illegal || (t.kind == .int && ["0x", "0X", "0b", "0B"].contains t.literal)

/-- Number of errors of a text: its faulty tokens, and one more if it ends inside of a string, a
comment or a command. -/
def lexicalErrors (names : Namespaces) (source : String) : Nat :=
  (tokenize names source).tokens.countP Token.isFaulty +
    if (Mode.ofText source.toList).open?.isSome then 1 else 0

/-- The text has no error. -/
def Clean (names : Namespaces) (source : String) : Prop :=
  (∀ t ∈ (tokenize names source).tokens,
    t.kind ≠ .illegal ∧ (t.kind = .int → t.literal ∉ ["0x", "0X", "0b", "0B"])) ∧
    (Mode.ofText source.toList).open? = none

/-- A text without lexical errors is clean: no token is faulty and nothing is left open. -/
private theorem lexicalErrors_eq_zero_iff {names : Namespaces} {source : String} :
    lexicalErrors names source = 0 ↔ Clean names source := by
  have hfaulty : ∀ t : Token, t.isFaulty = false ↔
      t.kind ≠ .illegal ∧ (t.kind = .int → t.literal ∉ ["0x", "0X", "0b", "0B"]) := by
    intro t
    simp only [Token.isFaulty, Bool.or_eq_false_iff, beq_eq_false_iff_ne, ne_eq,
      Bool.and_eq_false_imp, beq_iff_eq, List.contains_eq_mem, decide_eq_false_iff_not]
  rw [lexicalErrors, Clean, Nat.add_eq_zero_iff, List.countP_eq_zero]
  simp only [Bool.not_eq_true, hfaulty, ite_eq_right_iff, Nat.one_ne_zero, imp_false,
    Option.isSome_eq_false_iff, Option.isNone_iff_eq_none]

/-! ### Reports of errors and of warnings -/

section Reading

variable (names : Namespaces) (source : String)

/-- What a reading reports are the problems of its tokens, and last what the text ends in. This
counts reports without the scanners that made them. -/
private theorem problems_tokenize :
    (tokenize names source).diagnostics.map Diagnostic.problem =
      (tokenize names source).tokens.flatMap (Token.problems source.toList) ++
        ((Mode.ofText source.toList).open?.map (Problem.unfinished source.toList)).toList := by
  obtain ⟨happ, -⟩ := Trivia.opens_prologue source.toList
  obtain ⟨htokens, hreports⟩ := tokenize_eq names source
  rw [htokens, hreports, open?_ofText names source.toList]
  exact problems_divide names _ happ

/-- A token has an error for a problem iff it is faulty, and then only this one. An escape without a
meaning is a problem, too, but no error. -/
private theorem Token.countP_problems (cs : List Char) (t : Token) :
    (t.problems cs).countP (·.level.isError) = if t.isFaulty then 1 else 0 := by
  unfold Token.problems Token.isFaulty
  split
  · next h => simp [h, Problem.error, Level.isError]
  · next h =>
    by_cases hbare : t.literal ∈ ["0x", "0X", "0b", "0B"]
    · simp [h, hbare, Problem.error, Level.isError]
    · simp [h, hbare]
  · next h =>
    have hwarnings : ∀ (es : List (Char × Span)),
        (es.map fun e => Problem.warning Code.unknownEscape e.2).countP (·.level.isError) = 0 := by
      intro es
      rw [List.countP_map, List.countP_eq_zero]
      intro e _
      simp [Problem.warning, Level.isError]
    simp [h, hwarnings]
  · next hillegal hint _ =>
    rw [beq_eq_false_iff_ne.mpr hillegal, beq_eq_false_iff_ne.mpr hint]
    rfl

/-- **As many errors are reported as the text has.** One comes from each faulty token, and one from
the text if it ends inside an item. -/
theorem countP_isError_tokenize :
    (tokenize names source).diagnostics.countP (·.isError) = lexicalErrors names source := by
  have hproblem : (fun d : Diagnostic => d.isError) =
      (fun p : Problem => p.level.isError) ∘ Diagnostic.problem := rfl
  have htokens : ∀ ts : List Token,
      (ts.flatMap (Token.problems source.toList)).countP (·.level.isError) =
        ts.countP Token.isFaulty := by
    intro ts
    induction ts with
    | nil => rfl
    | cons t ts ih =>
      rw [List.flatMap_cons, List.countP_append, t.countP_problems, ih, List.countP_cons,
        Nat.add_comm]
  rw [hproblem, ← List.countP_map, problems_tokenize, List.countP_append, htokens, lexicalErrors]
  congr 1
  cases (Mode.ofText source.toList).open? with
  | none => rfl
  | some e => rfl

/-- A reading reports nothing but errors and warnings, as this is all that tokens and open items
have for problems. -/
theorem level_of_mem_diagnostics :
    ∀ d ∈ (tokenize names source).diagnostics, d.level = .error ∨ d.level = .warning := by
  intro d hd
  have hmem := List.mem_map_of_mem (f := Diagnostic.problem) hd
  rw [problems_tokenize, List.mem_append] at hmem
  rcases hmem with hmem | hmem
  · obtain ⟨t, -, hproblem⟩ := List.mem_flatMap.mp hmem
    unfold Token.problems at hproblem
    split at hproblem
    · exact .inl (congrArg Problem.level (List.mem_singleton.mp hproblem))
    · split at hproblem
      · exact .inl (congrArg Problem.level (List.mem_singleton.mp hproblem))
      · exact absurd hproblem List.not_mem_nil
    · obtain ⟨e, -, he⟩ := List.mem_map.mp hproblem
      exact .inr (congrArg Problem.level he.symm)
    · exact absurd hproblem List.not_mem_nil
  · obtain ⟨e, -, he⟩ := Option.map_eq_some_iff.mp (Option.mem_toList.mp hmem)
    exact .inl (congrArg Problem.level he.symm)

/-- What is no error is a warning, so both numbers can be had from one count. -/
private theorem length_sub_countP_isError :
    let reports := (tokenize names source).diagnostics
    reports.length - reports.countP (·.isError) = reports.countP (·.level == .warning) := by
  intro reports
  have hlevels : reports.countP (fun d => ¬ d.isError) = reports.countP (·.level == .warning) := by
    refine List.countP_congr fun d hd => ?_
    rcases level_of_mem_diagnostics names source d hd with h | h <;>
      simp [Diagnostic.isError, Level.isError, h]
  have hlength := List.length_eq_countP_add_countP (·.isError) (l := reports)
  omega

end Reading

namespace Command

/-! ### The report on a text -/

/-- The report on a text at a path: what its log holds, then the numbers of errors and of warnings
in the log. -/
def account (names : Namespaces) (path text : String) : String :=
  let log := (Log.empty.tokenize names text).2
  String.join (log.diagnostics.map fun d => d.render path text ++ "\n\n") ++ path ++
    if log.diagnostics = [] then ": ok\n"
    else ": " ++ toString log.errorCount ++ " error(s), " ++ toString log.warningCount ++
      " warning(s)\n"

/-- **The numbers in a report are right**, those of errors and those of warnings. -/
theorem report_lexed (names : Namespaces) (text : String → String) (path : String) :
    report (lexed names text path) = account names path (text path) := by
  set reports := (tokenize names (text path)).diagnostics with hreports
  have hlog : (Log.empty.tokenize names (text path)).2 = ⟨reports⟩ := rfl
  have herrors : (lexed names text path).errorCount = (⟨reports⟩ : Log).errorCount := by
    refine List.countP_congr fun d _ => ?_
    cases hlevel : d.level <;> simp [Diagnostic.isError, Level.isError, hlevel]
  have hwarnings : reports.length - (⟨reports⟩ : Log).errorCount =
      (⟨reports⟩ : Log).warningCount := by
    rw [← herrors]
    exact length_sub_countP_isError names (text path)
  have hfields : (lexed names text path).reading.diagnostics = reports := rfl
  simp only [report, verdict, account, hlog, hfields, hwarnings, herrors, List.isEmpty_iff,
    String.append_assoc]
  split <;> rfl

/-! ### The command as a whole -/

section Check

variable (names : Namespaces) (text : String → String) (paths : List String)

private theorem total_errorCount_lexed :
    LexedFile.total (·.errorCount) (paths.map (lexed names text)) =
      (paths.map fun path => lexicalErrors names (text path)).sum := by
  induction paths with
  | nil => rfl
  | cons path paths ih =>
    rw [List.map_cons, LexedFile.total, ih, List.map_cons, List.sum_cons]
    congr 1
    exact countP_isError_tokenize names (text path)

private theorem countP_errorCount_lexed :
    (paths.map (lexed names text)).countP (0 < ·.errorCount) =
      paths.countP fun path => 0 < lexicalErrors names (text path) := by
  rw [List.countP_map]
  refine List.countP_congr fun path _ => ?_
  have herrors : (lexed names text path).errorCount = lexicalErrors names (text path) :=
    countP_isError_tokenize names (text path)
  rw [Function.comp_apply, herrors]

private theorem sum_lexicalErrors_eq_zero_iff :
    (paths.map fun path => lexicalErrors names (text path)).sum = 0 ↔
      ∀ path ∈ paths, Clean names (text path) := by
  simp only [List.sum_eq_zero_iff_forall_eq_nat, List.mem_map, forall_exists_index, and_imp,
    forall_apply_eq_imp_iff₂, lexicalErrors_eq_zero_iff]

end Check

/-- A fault while the sources are read is the fault of the command, and nothing is put out. -/
private theorem check_of_error (request : CheckRequest) {settings : Settings} {sources : Sources}
    {fault : Fault}
    (h : (lexAll settings request.namespaces request.jobs sources).2 = .error fault) :
    (check request settings sources).out = "" ∧
      (check request settings sources).fault = some fault := by
  rcases hlex : lexAll settings request.namespaces request.jobs sources with ⟨remarks, result⟩
  rw [hlex] at h
  obtain rfl : result = .error fault := h
  simp only [check, hlex, and_self]

/-- When all texts have been read, their reports are put out, and any errors in them are the
fault. -/
private theorem check_of_ok (request : CheckRequest) {settings : Settings} {sources : Sources}
    {found : List LexedFile}
    (h : (lexAll settings request.namespaces request.jobs sources).2 = .ok found) :
    let errors := LexedFile.total (·.errorCount) found
    (check request settings sources).out = String.join (found.map report) ∧
      (check request settings sources).fault =
        if 0 < errors then some (.lexical (found.countP (0 < ·.errorCount)) errors) else none := by
  intro errors
  rcases hlex : lexAll settings request.namespaces request.jobs sources with ⟨remarks, result⟩
  rw [hlex] at h
  obtain rfl : result = .ok found := h
  simp only [check, hlex, true_and]
  rfl

/-- The command sees the tree of files and leaves it as it is. -/
private theorem perform_check (processors : Nat) (invocation : CommandLine.Invocation)
    (settings : Settings) (paths extra : List String) (files : Files) :
    (Program.perform processors { invocation with task := .check paths extra } settings :
        StateM Files Outcome) files =
      (check ⟨invocation.verbose || settings.verbose, extra, invocation.jobs⟩ settings
        (files.sources paths), files) := by
  have hread := readSources_files paths files
  simp only [Program.perform, bind, StateT.bind, hread]
  rfl

end Command

/-- **Checking reports exactly the errors of the streams.** The command sees the tree of files and
leaves it as it is. If one of its paths holds no text, nothing is put out and the fault is that of
such a path. Otherwise the output holds the reports on all texts, in the order of the paths, with
the numbers of errors and warnings in their logs. The command succeeds iff every text is clean; if
not, the fault says how many of the paths hold an error, and how many errors there are. -/
theorem check_exact (processors : Nat) (invocation : CommandLine.Invocation) (settings : Settings)
    (paths extra : List String) (files : Files) (hpaths : paths ≠ [])
    (hjobs : 1 ≤ invocation.jobs.getD settings.jobs) :
    let names := settings.namespacesWith extra
    let run := (Program.perform processors { invocation with task := .check paths extra } settings :
      StateM Files Outcome) files
    run.2 = files ∧
      ((∃ path e, files.Unreadable paths path e) →
        run.1.out = "" ∧ ∃ path e, files.Unreadable paths path e ∧
          run.1.fault = some (Fault.unreadable path e)) ∧
      ((¬ ∃ path e, files.Unreadable paths path e) → ∃ text, files.Reads paths text ∧
        run.1.out = String.join (paths.map fun path => Command.account names path (text path)) ∧
        (run.1.fault = none ↔ ∀ path ∈ paths, Clean names (text path)) ∧
        ((¬ ∀ path ∈ paths, Clean names (text path)) →
          run.1.fault = some (.lexical
            (paths.countP fun path => 0 < lexicalErrors names (text path))
            (paths.map fun path => lexicalErrors names (text path)).sum))) := by
  intro names run
  let request : Command.CheckRequest :=
    ⟨invocation.verbose || settings.verbose, extra, invocation.jobs⟩
  obtain ⟨hout, hfiles⟩ :=
    Prod.ext_iff.mp (Command.perform_check processors invocation settings paths extra files)
  have hout : run.1 = Command.check request settings (files.sources paths) := hout
  rw [hout]
  refine ⟨hfiles, fun hunreadable => ?_, fun hreadable => ?_⟩
  · obtain ⟨path, e, hpath, hlex⟩ := Command.lexAll_of_unreadable extra hpaths hjobs hunreadable
    obtain ⟨hnothing, hfault⟩ := Command.check_of_error request hlex
    exact ⟨hnothing, path, e, hpath, hfault⟩
  · obtain ⟨text, htext⟩ := Files.reads_of_not_unreadable hreadable
    obtain ⟨hreports, hfault⟩ :=
      Command.check_of_ok request (Command.lexAll_of_reads extra hpaths hjobs htext)
    rw [Command.total_errorCount_lexed, Command.countP_errorCount_lexed] at hfault
    have hclean := Command.sum_lexicalErrors_eq_zero_iff names text paths
    refine ⟨text, htext, ?_, ?_, fun hnot => ?_⟩
    · rw [hreports, List.map_map]
      exact congrArg String.join (List.map_congr_left fun path _ =>
        Command.report_lexed names text path)
    · rw [hfault, ← hclean]
      simp [names]
    · rw [hfault]
      exact if_pos (Nat.pos_of_ne_zero (mt hclean.mp hnot))

/-- A text with two errors is given twice; between them stands one with a warning only. -/
theorem check_exact_repeated_path :
    let files : Files :=
      { entries := [(["a"], .file "0x £".toUTF8), (["b"], .file "\"\\q\"".toUTF8)] }
    let invocation : CommandLine.Invocation := ⟨false, false, none, none, .check ["a", "b", "a"] []⟩
    let run := (Program.perform 1 invocation (.standard 1) : StateM Files Outcome) files
    run.2 = files ∧ run.1.fault = some (.lexical 2 4) := by
  intro files invocation run
  obtain ⟨hfiles, -, hreadable⟩ :=
    check_exact 1 invocation (.standard 1) ["a", "b", "a"] [] files (by decide) (by decide)
  obtain ⟨text, htext, -, -, hfault⟩ := hreadable (Files.not_unreadable (by decide +kernel))
  have ha : text "a" = "0x £" := htext.eq_of_read (by decide) (by decide +kernel)
  have hb : text "b" = "\"\\q\"" := htext.eq_of_read (by decide) (by decide +kernel)
  refine ⟨hfiles, (hfault fun hclean => ?_).trans ?_⟩
  · have hzero := lexicalErrors_eq_zero_iff.mpr (hclean "a" (by decide))
    rw [ha] at hzero
    exact absurd hzero (by decide +kernel)
  · simp only [List.countP_cons, List.countP_nil, List.map_cons, List.map_nil, ha, hb]
    decide +kernel

end Lexis
