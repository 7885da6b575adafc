import SchemaSnippets.CommandLine.Command
import SchemaSnippets.Config.Settings
import SchemaSnippets.Report.Check
import SchemaSnippets.Report.Console
import SchemaSnippets.Request.Load

/-!
# Running commands

What the program prints for its arguments, and the code it ends with: 0 if all went well, 1 if the
settings, the request or a file fails or if a check finds an error, and 2 if the arguments are wrong.
-/

namespace SchemaSnippets.CommandLine
open Config Files Report Request

/-- The end of a run. -/
structure Outcome where
  exitCode : Nat
  stdout : String
  stderr : String
deriving DecidableEq, Repr

namespace Outcome

def success (stdout : String) : Outcome := ⟨0, stdout, ""⟩

/-- A run that ends with an error. -/
def failure (message : String) : Outcome := ⟨1, "", "Error: " ++ message ++ "\n"⟩

/-- A run that prints a report. -/
def ofLines (exitCode : Nat) (lines : List ConsoleLine) : Outcome :=
  ⟨exitCode, stdoutOf lines, stderrOf lines⟩

end Outcome

/-- What is printed for a version. -/
def versionText : String := "typesnip 0.1.0\n"

/-- What is printed for help. -/
def helpText : String :=
  String.join
    ["Generate model and query snippets from a query and its type graph\n\n",
      "Usage: typesnip [--verbose] COMMAND\n\n",
      "Commands:\n",
      "  generate REQUEST [--language ID]... [--config FILE] [--format text|json]",
      " [--output DIR [--force]]\n",
      "  check REQUEST\n",
      "  languages\n",
      "  completions bash|elvish|fish|powershell|zsh\n",
      "  help [COMMAND]\n\n",
      "A request of - is read from standard input.\n"]

/-- The outcome of arguments that name no command to run. -/
def Halt.outcome : Halt → Outcome
  | .help => .success helpText
  | .version => .success versionText
  | .misuse e => ⟨2, "", "error: " ++ e.message ++ "\n"⟩

variable {m : Type → Type} [Monad m] [FileAccess m]

/-- The request at a path, or the one on standard input for a dash. -/
def readRequest (stdin : m (Option String)) (path : String) : m (Except LoadError CodeRequest) := do
  if components path = [['-']] then
    match ← stdin with
    | none => return .error (.unreadableFile path)
    | some src => return CodeRequest.load src
  else CodeRequest.ofFile path

/-- What a report of snippets prints. -/
def reportOutcome (format : ReportFormat) (r : SnippetReport) : Outcome :=
  match format with
  | .text => .ofLines 0 r.lines
  | .json => .success (r.document.pretty ++ "\n")

namespace Command

def runGenerate (stdin : m (Option String)) (c : GenerateCommand) : m Outcome := do
  match ← Settings.load c.config "." with
  | .error e => return .failure e.message
  | .ok settings =>
    match ← readRequest stdin c.request with
    | .error e => return .failure e.message
    | .ok r =>
      let languages := if c.languages.isEmpty then settings.languages else c.languages
      match ← produce r languages ⟨settings.client, settings.docs⟩ c.destination with
      | .error e => return .failure e.message
      | .ok report => return reportOutcome c.format report

def runCheck (stdin : m (Option String)) (path : String) : m Outcome := do
  match ← readRequest stdin path with
  | .error e => return .failure e.message
  | .ok r =>
    let report := Report.check r path
    return .ofLines (if report.isValid then 0 else 1) report.lines

def run (stdin : m (Option String)) : Command → m Outcome
  | .generate c => runGenerate stdin c
  | .check path => runCheck stdin path
  | .languages => return .ofLines 0 languageLines
  | .completions shell => return .success shell.script

end Command

/-- Runs the program with some arguments. -/
def run (stdin : m (Option String)) (args : List String) : m Outcome :=
  match Command.ofArguments args with
  | .error halt => return halt.outcome
  | .ok c => c.run stdin

end SchemaSnippets.CommandLine
