import Lexis.CommandLine.Given

/-!
# Reading one scope

Arguments are read from left to right. Asking for the version or for help ends the matter at
once, unless something in front of it was wrong. The value of an option that stands in an argument
of its own is examined when the next option of the scope is met or the scope ends; so in front of
a command it is examined only **after** all that stands behind the command.
-/

namespace Lexis.CommandLine

/-- What is known of a scope so far. -/
structure State where
  /-- What has been examined. -/
  given : Given := {}
  /-- An option whose value has not been examined, or not even been seen. -/
  pending : Option (Parameter × Option String) := none

namespace State

/-- Examines the value of the pending option. An option without a value is an error. -/
def settle (s : State) : Except Stop State :=
  match s.pending with
  | none => .ok s
  | some (_, none) => .error .usage
  | some (p, some value) => return { given := ← s.given.give p value }

/-- Carries out an option. Only an option with a value may have one attached. -/
def choose (scope : Scope) (s : State) (choice : Choice) (attached : Option String) :
    Except Stop State :=
  match choice, attached with
  | .parameter p, some value => do return { given := ← (← s.settle).given.give p value }
  | .parameter p, none => do return { (← s.settle) with pending := some (p, none) }
  | _, some _ => .error .usage
  | .switch sw, none => do return { given := ← (← s.settle).given.turnOn sw }
  | .version, none => do let _ ← s.settle; .error (.version scope)
  | .help, none => do let _ ← s.settle; .error (.help scope)

/-- Carries out the letters behind one hyphen. What stands behind a letter that takes a value is
that value, without an equals sign in front. -/
def letters (scope : Scope) (s : State) : List Char → Except Stop State
  | [] => .ok s
  | c :: more =>
    match scope.short? c with
    | none => .error .usage
    | some (.parameter p) =>
      match more with
      | [] => s.choose scope (.parameter p) none
      | '=' :: value => s.choose scope (.parameter p) (some (String.ofList value))
      | value => s.choose scope (.parameter p) (some (String.ofList value))
    | some choice => do (← s.choose scope choice none).letters scope more

/-- Takes an argument that is no option: as the value that is waited for, else as a file. -/
def takePlain (scope : Scope) (s : State) (arg : String) : Except Stop State :=
  match s.pending with
  | some (p, none) => .ok { s with pending := some (p, some arg) }
  | _ =>
    if scope.takesFiles then do return { given := ← (← s.settle).given.addFile arg }
    else .error .usage

/-- Takes an argument behind the separator, which is a file in any case. -/
def takeFile (scope : Scope) (s : State) (arg : String) : Except Stop State :=
  if scope.takesFiles then do return { given := ← (← s.settle).given.addFile arg }
  else .error .usage

end State

/-- Where a command begins: its scope and the arguments behind it. -/
abbrev Onward := Option (Scope × List String)

/-- The command that an argument begins, in front of any command and where no value is waited
for. -/
def beginsCommand? (scope : Scope) (s : State) (arg : String) : Option Scope :=
  match scope, s.pending with
  | .program, some (_, none) => none
  | .program, _ => Scope.ofCommand? arg
  | _, _ => none

/-- The argument is the word `help`, at a place where a command may stand. -/
def beginsHelp (scope : Scope) (s : State) (arg : String) : Bool :=
  match scope, s.pending with
  | .program, some (_, none) => false
  | .program, _ => arg == "help"
  | _, _ => false

/-- What the arguments behind the word `help` ask for: the program's own help, or that of a
command. -/
def helpAbout : List String → Stop
  | [] => .help .program
  | [name] =>
    match Scope.ofCommand? name with
    | some scope => .help scope
    | none => if name = "help" then .help .program else .usage
  | _ => .usage

/-- Reads the arguments of a scope up to their end, or up to the command. -/
def readScope (scope : Scope) (s : State) : List String → Except Stop (State × Onward)
  | [] => .ok (s, none)
  | arg :: more =>
    match Argument.ofText arg.toList with
    | .separator => do return (← more.foldlM (State.takeFile scope) s, none)
    | .long name value =>
      match scope.long? (String.ofList name) with
      | none => .error .usage
      | some choice => do
        readScope scope (← s.choose scope choice (value.map String.ofList)) more
    | .short letters => do readScope scope (← s.letters scope letters) more
    | .plain =>
      match beginsCommand? scope s arg with
      | some command => .ok (s, some (command, more))
      | none =>
        if beginsHelp scope s arg then .error (helpAbout more)
        else do readScope scope (← s.takePlain scope arg) more

end Lexis.CommandLine
