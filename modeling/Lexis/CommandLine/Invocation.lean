import Lexis.Command.Check
import Lexis.Command.Config
import Lexis.Command.Tokens
import Lexis.CommandLine.Reader

/-!
# Invocations

A command line, together with the environment, amounts to an invocation: what the program is told
and the command it carries out. An option that is not given in a scope may come from the
environment; this is looked up in **each** of the two scopes, so a value there that will not do is
an error unless the option is given in both. What is given on the command line outweighs the
environment, and what stands behind the command outweighs what stands in front of it.
-/

namespace Lexis.CommandLine

/-- Names of the environment and their values. -/
abbrev Environment := List (String × String)

/-- A value and where it comes from. -/
inductive Sourced (α : Type) where
  /-- Nothing is said. -/
  | absent
  /-- From the environment. -/
  | environment (value : α)
  /-- From the command line. -/
  | commandLine (value : α)
deriving DecidableEq, Repr

namespace Sourced

variable {α : Type}

/-- How much a value weighs. -/
def weight : Sourced α → Nat
  | absent => 0
  | environment _ => 1
  | commandLine _ => 2

/-- The value. -/
def value? : Sourced α → Option α
  | absent => none
  | environment v => some v
  | commandLine v => some v

/-- Of a value in front of the command and one behind it, the weightier, else the one behind. -/
def prevailing (front behind : Sourced α) : Sourced α :=
  if behind.weight < front.weight then front else behind

/-- The value of an option in one scope, which the environment may supply. -/
def lookUp (given : Option α) (name : String) (read : String → Option α) (env : Environment) :
    Except Stop (Sourced α) :=
  match given with
  | some v => .ok (.commandLine v)
  | none =>
    match env.lookup name with
    | none => .ok .absent
    | some text =>
      match read text with
      | some v => .ok (.environment v)
      | none => .error .usage

end Sourced

/-- A truth value as the environment spells it. -/
def truth? (text : String) : Option Bool :=
  if text = "true" then some true else if text = "false" then some false else none

/-- The options that belong to the program, in one scope. -/
structure Shared where
  /-- Talk about the work. -/
  verbose : Sourced Bool
  /-- Write without colours. -/
  noColor : Sourced Bool
  /-- The settings file. -/
  config : Sourced String
  /-- The number of workers. -/
  jobs : Sourced Nat

namespace Shared

/-- The program's options in one scope. -/
def ofGiven (g : Given) (env : Environment) : Except Stop Shared := do
  let switch (s : Switch) := if g.switches.contains s then some true else none
  return {
    verbose := ← Sourced.lookUp (switch .verbose) "MONKEYT_VERBOSE" truth? env
    noColor := ← Sourced.lookUp (switch .noColor) "MONKEYT_NO_COLOR" truth? env
    config := ← Sourced.lookUp g.config "MONKEYT_CONFIG" path? env
    jobs := match g.jobs with
      | some n => .commandLine n
      | none => .absent }

/-- The program's options in front of the command and behind it, put together. -/
def prevailing (front behind : Shared) : Shared :=
  ⟨front.verbose.prevailing behind.verbose, front.noColor.prevailing behind.noColor,
    front.config.prevailing behind.config, front.jobs.prevailing behind.jobs⟩

end Shared

/-- A command with its own options. -/
inductive Task where
  /-- List tokens. -/
  | tokens (files : List String) (format : Option Format) (namespaces : List String)
  /-- Check sources. -/
  | check (files : List String) (namespaces : List String)
  /-- Show or create settings. -/
  | config (init : Bool) (path : Option String) (force : Bool)
deriving DecidableEq, Repr

/-- What the program is told to do. -/
structure Invocation where
  /-- Talk about the work. -/
  verbose : Bool
  /-- Write without colours. -/
  noColor : Bool
  /-- The settings file. -/
  config : Option String
  /-- The number of workers. -/
  jobs : Option Nat
  /-- The command. -/
  task : Task
deriving DecidableEq, Repr

/-- The command of a scope, if all it needs is given. Lists and checks need a file; where and
whether to overwrite may be said only of a file that is to be created. -/
def task (scope : Scope) (g : Given) : Except Stop Task :=
  match scope with
  | .program => .error .usage
  | .tokens =>
    if g.files.isEmpty then .error .usage else .ok (.tokens g.files g.format g.namespaces)
  | .check => if g.files.isEmpty then .error .usage else .ok (.check g.files g.namespaces)
  | .config =>
    let init := g.switches.contains .init
    let force := g.switches.contains .force
    if (g.path.isSome || force) && !init then .error .usage else .ok (.config init g.path force)

/-- Reads a command line. -/
def read (args : List String) (env : Environment) : Except Stop Invocation := do
  let (front, onward) ← readScope .program {} args
  match onward with
  | none =>
    let _ ← front.settle
    .error .usage
  | some (scope, args) =>
    let (behind, _) ← readScope scope {} args
    let behind := (← behind.settle).given
    let sharedBehind ← Shared.ofGiven behind env
    let task ← task scope behind
    let front := (← front.settle).given
    let shared := (← Shared.ofGiven front env).prevailing sharedBehind
    return {
      verbose := shared.verbose.value?.getD false
      noColor := shared.noColor.value?.getD false
      config := shared.config.value?
      jobs := shared.jobs.value?
      task }

end Lexis.CommandLine
