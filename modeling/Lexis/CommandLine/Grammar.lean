/-!
# The grammar of the command line

The program is called with options, a command, and the command's own options and files. Some
options belong to the program and may stand on either side of the command; others belong to one
command. An option is a switch or takes a value.
-/

namespace Lexis.CommandLine

/-- Where on the command line an argument stands. -/
inductive Scope where
  /-- In front of the command. -/
  | program
  /-- Behind the command that lists tokens. -/
  | tokens
  /-- Behind the command that checks sources. -/
  | check
  /-- Behind the command that shows or creates settings. -/
  | config
deriving DecidableEq, Repr

/-- The command with the given name. -/
def Scope.ofCommand? (name : String) : Option Scope :=
  if name = "tokens" then some .tokens
  else if name = "check" then some .check
  else if name = "config" then some .config
  else none

/-- The name that the program goes by in a scope. -/
def Scope.programName : Scope → String
  | program => "monkeyt"
  | tokens => "monkeyt-tokens"
  | check => "monkeyt-check"
  | config => "monkeyt-config"

/-- Whether files may be named in a scope. -/
def Scope.takesFiles : Scope → Bool
  | tokens | check => true
  | program | config => false

/-- Options without a value. -/
inductive Switch where
  | verbose
  | noColor
  | init
  | force
deriving DecidableEq, Repr

/-- Options with a value. -/
inductive Parameter where
  | config
  | jobs
  | format
  | nspace
  | path
deriving DecidableEq, Repr

/-- What an option asks for. -/
inductive Choice where
  /-- Turns something on. -/
  | switch (s : Switch)
  /-- Takes a value. -/
  | parameter (p : Parameter)
  /-- Shows the version, and nothing else. -/
  | version
  /-- Shows how to use the program, and nothing else. -/
  | help
deriving DecidableEq, Repr

/-- The options of a scope: long name, short name if there is one, and meaning. -/
def Scope.choices (scope : Scope) : List (String × Option Char × Choice) :=
  let own := match scope with
    | program => []
    | tokens =>
      [("format", some 'F', .parameter .format),
       ("namespace", some 'n', .parameter .nspace)]
    | check => [("namespace", some 'n', .parameter .nspace)]
    | config =>
      [("init", none, .switch .init), ("path", some 'p', .parameter .path),
       ("force", some 'f', .switch .force)]
  own ++
    [("verbose", some 'v', .switch .verbose), ("config", some 'c', .parameter .config),
     ("no-color", none, .switch .noColor), ("jobs", some 'j', .parameter .jobs),
     ("version", some 'V', .version), ("help", some 'h', .help)]

/-- The option with the given long name. -/
def Scope.long? (scope : Scope) (name : String) : Option Choice :=
  (scope.choices.find? (·.1 == name)).map (·.2.2)

/-- The option with the given letter. -/
def Scope.short? (scope : Scope) (letter : Char) : Option Choice :=
  (scope.choices.find? (·.2.1 == some letter)).map (·.2.2)

/-! ### Arguments -/

/-- An argument by its form. -/
inductive Argument where
  /-- Two hyphens: what follows is no option. -/
  | separator
  /-- A long name, and the text behind an equals sign. -/
  | long (name : List Char) (value : Option (List Char))
  /-- Letters behind one hyphen. -/
  | short (letters : List Char)
  /-- Anything else; also a single hyphen. -/
  | plain

/-- The form of an argument. -/
def Argument.ofText : List Char → Argument
  | ['-', '-'] => .separator
  | '-' :: '-' :: name =>
    match name.dropWhile (· != '=') with
    | _ :: value => .long (name.takeWhile (· != '=')) (some value)
    | [] => .long name none
  | '-' :: c :: more => .short (c :: more)
  | _ => .plain

end Lexis.CommandLine
