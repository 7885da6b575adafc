import SchemaSnippets.CommandLine.Arguments
import SchemaSnippets.Report.Produce

/-!
# Commands

What a command line can ask for, and how it is spelled.

* `generate REQUEST` makes snippets, for each `--language`, with the settings of `--config`, shown in a
  `--format` or written to the directory `--output`, where `--force` replaces files.
* `check REQUEST` looks at a request without making snippets.
* `languages` lists the languages.
* `completions SHELL` prints a script for a shell, by which it completes the first word behind the
  program's name to a command.
* `help` tells about the program or about a command, as `--help` does behind it.

`--verbose` may stand in front of the command and behind it.
-/

namespace SchemaSnippets.CommandLine
open Report

inductive ReportFormat where
  | text
  | json
deriving DecidableEq, Repr

namespace ReportFormat

def ofName? : String → Option ReportFormat
  | "text" => some .text
  | "json" => some .json
  | _ => none

end ReportFormat

/-- A shell that completes command lines. -/
inductive Shell where
  | bash
  | elvish
  | fish
  | powershell
  | zsh
deriving DecidableEq, Repr

namespace Shell

def ofName? : String → Option Shell
  | "bash" => some .bash
  | "elvish" => some .elvish
  | "fish" => some .fish
  | "powershell" => some .powershell
  | "zsh" => some .zsh
  | _ => none

end Shell

/-- What the snippets of a request are made with. -/
structure GenerateCommand where
  request : String
  /-- The languages; none for those of the settings. -/
  languages : List String
  config : Option String
  format : ReportFormat
  destination : Option Destination
deriving DecidableEq, Repr

inductive Command where
  | generate (c : GenerateCommand)
  | check (request : String)
  | languages
  | completions (shell : Shell)
deriving DecidableEq, Repr

namespace Command

/-- The words that name a command. -/
def names : List String :=
  ["generate", "check", "languages", "completions", "help"]

/-! ## Grammars -/

def helpOption : OptionSpec := ⟨some 'h', "help", .help⟩

def verboseOption : OptionSpec := ⟨some 'v', "verbose", .flag⟩

/-- A path is any text but the empty one. -/
def isPath (s : String) : Bool := s != ""

/-- A path that is given at most once. -/
def pathRule : ValueRule := ⟨false, isPath⟩

/-- What may stand in front of a command. -/
def outerGrammar : Grammar :=
  ⟨[helpOption, verboseOption, ⟨some 'V', "version", .version⟩], []⟩

/-- A command without options of its own. -/
def plainGrammar (operands : List (String → Bool)) : Grammar :=
  ⟨[helpOption, verboseOption], operands⟩

def generateGrammar : Grammar :=
  ⟨[helpOption, verboseOption,
    ⟨some 'l', "language", .value ⟨true, fun _ => true⟩⟩,
    ⟨none, "config", .value pathRule⟩,
    ⟨none, "format", .value ⟨false, fun s => (ReportFormat.ofName? s).isSome⟩⟩,
    ⟨some 'o', "output", .value pathRule⟩,
    ⟨none, "force", .flag⟩], [isPath]⟩

/-! ## From arguments -/

/-- The only operand of a command. -/
def operand (a : Arguments) : Except Halt String :=
  match a.operands with
  | [s] => .ok s
  | _ => .error (.misuse .missingOperand)

/-- Where the snippets go. Replacing files makes sense only when files are written. -/
def destination (a : Arguments) : Except Halt (Option Destination) :=
  let force := "force" ∈ a.flags
  match a.value? "output" with
  | some directory => .ok (some ⟨directory, force⟩)
  | none => if force then .error (.misuse (.missingOption "output")) else .ok none

def readGenerate (args : List String) : Except Halt Command := do
  let a ← generateGrammar.read .empty none args
  return .generate
    { request := ← operand a
      languages := a.valuesOf "language"
      config := a.value? "config"
      format := ((a.value? "format").bind ReportFormat.ofName?).getD .text
      destination := ← destination a }

def readCheck (args : List String) : Except Halt Command := do
  let a ← (plainGrammar [isPath]).read .empty none args
  return .check (← operand a)

def readLanguages (args : List String) : Except Halt Command := do
  let _ ← (plainGrammar []).read .empty none args
  return .languages

def readCompletions (args : List String) : Except Halt Command := do
  let a ← (plainGrammar [fun s => (Shell.ofName? s).isSome]).read .empty none args
  match Shell.ofName? (← operand a) with
  | some shell => return .completions shell
  | none => .error (.misuse .missingOperand)

/-- Help is given on the program and on each command. -/
def readHelp : List String → Except Halt Command
  | [] => .error .help
  | [name] => if name ∈ names then .error .help else .error (.misuse (.unknownCommand name))
  | _ :: name :: _ => .error (.misuse (.unknownCommand name))

/-- Reads what follows the name of a command. -/
def readNamed (name : String) (args : List String) : Except Halt Command :=
  match name with
  | "generate" => readGenerate args
  | "check" => readCheck args
  | "languages" => readLanguages args
  | "completions" => readCompletions args
  | "help" => readHelp args
  | _ => .error (.misuse (.unknownCommand name))

/-- Reads the options in front of a command, and the command. -/
def readOuter : Arguments → List String → Except Halt Command
  | _, [] => .error (.misuse .missingCommand)
  | a, arg :: args =>
    if arg = "--" then .error (.misuse .missingCommand)
    else if isOption arg then do
      let (a, _) ← outerGrammar.readOption a arg
      readOuter a args
    else readNamed arg args

/-- The command that some arguments ask for. -/
def ofArguments (args : List String) : Except Halt Command :=
  readOuter .empty args

end Command

/-! ## Completion scripts -/

/-- The script for a shell. -/
def Shell.script (shell : Shell) : String :=
  let words := " ".intercalate Command.names
  let quoted := ", ".intercalate (Command.names.map fun name => "'" ++ name ++ "'")
  match shell with
  | .bash => "complete -W '" ++ words ++ "' typesnip\n"
  | .elvish =>
    "set edit:completion:arg-completer[typesnip] = \x7b|@args| put " ++ words ++ " \x7d\n"
  | .fish => "complete -c typesnip -n __fish_use_subcommand -a '" ++ words ++ "'\n"
  | .powershell =>
    "Register-ArgumentCompleter -Native -CommandName typesnip -ScriptBlock \x7b\n"
      ++ "  param($word)\n  " ++ quoted ++ " | Where-Object \x7b $_ -like \"$word*\" \x7d\n\x7d\n"
  | .zsh => "#compdef typesnip\n_arguments '1:command:(" ++ words ++ ")'\n"

end SchemaSnippets.CommandLine
