import Lexis.Proofs.Checking
import Lexis.Proofs.Logging
import Mathlib.Data.List.DropRight

/-!
# The history of a log

One log can serve many readings, and others may report to it or clear it in between. What it holds
can be told from **what was done since it was last cleared**, act by act: a reading adds the reports
that a fresh log would get, whatever the log held before (`Log.tokenize_eq`).

The last part of a history is found from its end (`List.rtakeWhile`), and the proof of
`Log.diagnostics_run` goes the same way, by induction on the history from its end.
-/

namespace Lexis

namespace Log

/-! ### What a log counts -/

/-- **There are errors** iff there is one to be counted. -/
theorem hasErrors_iff (log : Log) : log.hasErrors = true ↔ 0 < log.errorCount := by
  have hlevel : ∀ d : Diagnostic, d.isError = (d.level == Level.error) := by
    intro d
    cases h : d.level <;> simp [Diagnostic.isError, Level.isError, h]
  simp only [hasErrors, errorCount, count, List.countP_pos_iff, List.any_eq_true, hlevel]

/-- Errors and warnings are all there is, if there is nothing else. -/
private theorem errorCount_add_warningCount {log : Log}
    (h : ∀ d ∈ log.diagnostics, d.level = .error ∨ d.level = .warning) :
    log.errorCount + log.warningCount = log.diagnostics.length := by
  have hwarnings : log.diagnostics.countP (fun d => ¬ (d.level == Level.error) = true) =
      log.warningCount := by
    refine List.countP_congr fun d hd => ?_
    rcases h d hd with hlevel | hlevel <;> simp [hlevel]
  rw [List.length_eq_countP_add_countP (·.level == Level.error), hwarnings]
  rfl

/-! ### Readings -/

/-- **A reading adds the reports of a fresh one**, and the log has no say in its tokens. So
histories can be told from fresh readings alone. -/
theorem tokenize_eq (log : Log) (names : Namespaces) (source : String) :
    let fresh := empty.tokenize names source
    log.tokenize names source = (fresh.1, log.reportAll fresh.2.diagnostics) := by
  intro fresh
  have hfresh : fresh.2.diagnostics = (Lexis.tokenize names source).diagnostics :=
    List.nil_append _
  rw [hfresh]
  rfl

private theorem drainInto_start (log : Log) (names : Namespaces) (source : String) :
    (Lexer.start names source).drainInto log = log.tokenize names source :=
  Lexer.drainInto_eq _ log

/-! ### Histories -/

/-- What can be done with a log. -/
inductive Act where
  /-- Something is reported. -/
  | report (d : Diagnostic)
  /-- The log is cleared. -/
  | clear
  /-- A source is read into the log. -/
  | lex (names : Namespaces) (source : String)

namespace Act

/-- The log is cleared. -/
def isClear : Act → Bool
  | clear => true
  | _ => false

/-- A source is read into the log. -/
def isLex : Act → Bool
  | lex _ _ => true
  | _ => false

/-- What is added to a log: a source adds what a fresh log gets. -/
def reports : Act → List Diagnostic
  | report d => [d]
  | clear => []
  | lex names source => (empty.tokenize names source).2.diagnostics

end Act

/-- Does something with the log. -/
def act (log : Log) : Act → Log
  | .report d => log.report d
  | .clear => log.clear
  | .lex names source => (log.tokenize names source).2

/-- One act after the other. -/
def run (log : Log) (acts : List Act) : Log :=
  acts.foldl act log

/-- What is left of the reports before a history: nothing once the log is cleared. -/
def kept (log : Log) (acts : List Act) : List Diagnostic :=
  if acts.any Act.isClear then [] else log.diagnostics

/-- The acts since the log was last cleared. -/
def since (acts : List Act) : List Act :=
  acts.rtakeWhile (!·.isClear)

/-- **An act adds its reports**, unless it clears the log. Those of a reading are the ones of a
fresh one. -/
theorem act_of_not_isClear (log : Log) {a : Act} (h : a.isClear = false) :
    log.act a = log.reportAll a.reports := by
  cases a with
  | report d => rfl
  | clear => cases h
  | lex names source => exact congrArg Prod.snd (tokenize_eq log names source)

/-- **What a log holds** after a history. By induction from its end, as the last act either clears
the log or adds to it. -/
theorem diagnostics_run (log : Log) (acts : List Act) :
    (log.run acts).diagnostics = log.kept acts ++ (since acts).flatMap Act.reports := by
  induction acts using List.reverseRecOn with
  | nil => exact (List.append_nil _).symm
  | append_singleton acts a ih =>
    have hrun : log.run (acts ++ [a]) = (log.run acts).act a := List.foldl_concat _ _ _ _
    rw [hrun]
    cases hclear : a.isClear with
    | true =>
      obtain rfl : a = .clear := by cases a <;> first | rfl | cases hclear
      rw [kept, since, List.rtakeWhile_concat_neg]
      all_goals simp [act, clear, empty, Act.isClear]
    | false =>
      have hkept : log.kept (acts ++ [a]) = log.kept acts := by simp [kept, hclear]
      have hsince : since (acts ++ [a]) = since acts ++ [a] :=
        List.rtakeWhile_concat_pos _ _ _ (by simp [hclear])
      rw [act_of_not_isClear _ hclear, reportAll, ih, hkept, hsince, List.flatMap_append,
        List.append_assoc]
      simp

/-- A reading reports nothing but errors and warnings. -/
private theorem level_of_mem_reports {a : Act} (h : a.isLex = true) :
    ∀ d ∈ a.reports, d.level = .error ∨ d.level = .warning := by
  cases a with
  | report | clear => cases h
  | lex names source => exact level_of_mem_diagnostics names source

end Log

/-- **The past of a log is no part of a reading**: it brings up the tokens that it would with a
fresh log, with the reports behind those that are there, also if the log is at hand while reading.
So what a log holds is told by the acts since it was last cleared. -/
theorem log_histories :
    (∀ (log : Log) (names : Namespaces) (source : String),
      let fresh := Log.empty.tokenize names source
      let now := log.tokenize names source
      now.1 = fresh.1 ∧ now.2.diagnostics = log.diagnostics ++ fresh.2.diagnostics ∧
        (Lexer.start names source).drainInto log = now) ∧
    ∀ (log : Log) (acts : List Log.Act),
      let now := log.run acts
      now.diagnostics = log.kept acts ++ (Log.since acts).flatMap Log.Act.reports ∧
        (now.hasErrors = true ↔ 0 < now.errorCount) ∧
        (log.kept acts = [] → (∀ a ∈ Log.since acts, a.isLex = true) →
          now.errorCount + now.warningCount = now.diagnostics.length) := by
  refine ⟨fun log names source => ?_, fun log acts => ?_⟩
  · intro fresh now
    have hnow : now = (fresh.1, log.reportAll fresh.2.diagnostics) :=
      Log.tokenize_eq log names source
    rw [hnow]
    exact ⟨rfl, rfl, (Log.drainInto_start log names source).trans hnow⟩
  · refine ⟨Log.diagnostics_run log acts, Log.hasErrors_iff _, fun hkept hlex => ?_⟩
    refine Log.errorCount_add_warningCount fun d hd => ?_
    rw [Log.diagnostics_run, hkept, List.nil_append] at hd
    obtain ⟨a, ha, hd⟩ := List.mem_flatMap.mp hd
    exact Log.level_of_mem_reports (hlex a ha) d hd

/-- A note and a reading are cleared away; behind that stand a warning and two errors. -/
theorem log_histories_cleared :
    let note : Diagnostic := { level := .note, message := "seen" }
    let acts : List Log.Act :=
      [.lex .empty "@", .report note, .clear, .lex .empty "\"\\q", .lex .empty "0x"]
    let log : Log := ⟨[note]⟩
    let now := log.run acts
    log.kept acts = [] ∧ (∀ a ∈ Log.since acts, a.isLex = true) ∧ (Log.since acts).length = 2 ∧
      now.errorCount = 2 ∧ now.warningCount = 1 ∧ now.diagnostics.length = 3 := by
  intro note acts log now
  have hkept : log.kept acts = [] := by decide +kernel
  have hlex : ∀ a ∈ Log.since acts, a.isLex = true := by decide +kernel
  have herrors : now.errorCount = 2 := by decide +kernel
  have hwarnings : now.warningCount = 1 := by decide +kernel
  have htotal := (log_histories.2 log acts).2.2 hkept hlex
  refine ⟨hkept, hlex, by decide +kernel, herrors, hwarnings, ?_⟩
  rw [← htotal, herrors, hwarnings]

end Lexis
