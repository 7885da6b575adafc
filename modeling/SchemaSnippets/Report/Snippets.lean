import SchemaSnippets.Report.Console
import SchemaSnippets.Snippet.Generate

/-!
# Reporting snippets

The snippets of a request for several languages with their diagnostics, and the files that they were
written to. A report is shown as text, either the files or the snippets themselves, and as a JSON
document.
-/

namespace SchemaSnippets.Report
open Json Snippet

/-- A file for a snippet; `written` is false when an existing file was kept. -/
structure SavedFile where
  path : String
  written : Bool
deriving DecidableEq, Repr

/-- What was made for one language. -/
structure LanguageReport where
  language : String
  output : Output
  files : List SavedFile
deriving DecidableEq, Repr

structure SnippetReport where
  languages : List LanguageReport
deriving DecidableEq, Repr

namespace SnippetReport

/-- Every diagnostic with its language. -/
def diagnostics (r : SnippetReport) : List (String × Diagnostic) :=
  r.languages.flatMap fun l => l.output.findings.diagnostics.map (l.language, ·)

def snippets (r : SnippetReport) : List CodeSnippet :=
  r.languages.flatMap (·.output.snippets)

def files (r : SnippetReport) : List SavedFile :=
  r.languages.flatMap (·.files)

def hasErrors (r : SnippetReport) : Bool :=
  r.diagnostics.any (·.2.isError)

/-! ## As text -/

/-- A diagnostic behind its language. What is only information is not shown. -/
def diagnosticLine? (language : String) (d : Diagnostic) : Option ConsoleLine :=
  let message := "[" ++ language ++ "] " ++ d.message ++ (match d.location with
    | some l => " (at " ++ l ++ ")"
    | none => "")
  match d.severity with
  | .error => some (.error message)
  | .warning => some (.warning message)
  | .info => none

def fileLine (f : SavedFile) : ConsoleLine :=
  if f.written then .addedItem f.path
  else .item (f.path ++ " (exists, use --force to overwrite)")

/-- A snippet under its label, without blanks at its end. -/
def snippetLines (s : CodeSnippet) : List ConsoleLine :=
  [.divider (s.language ++ "/" ++ s.label), .out (Text.trimEnd s.content)]

def lines (r : SnippetReport) : List ConsoleLine :=
  r.diagnostics.filterMap (fun (language, d) => diagnosticLine? language d)
    ++ (if r.files.isEmpty then [ConsoleLine.blank].intercalate (r.snippets.map snippetLines)
        else .heading "Snippets" :: r.files.map fileLine)

/-! ## As a document -/

def snippetValue (s : CodeSnippet) : Value :=
  .ofMembers [("label", .string s.label), ("language", .string s.language),
    ("content", .string s.content)]

/-- The members of a diagnostic. -/
def diagnosticMembers (d : Diagnostic) : List (String × Value) :=
  [("severity", .string d.severity.name), ("phase", .string d.phase.name),
    ("message", .string d.message),
    ("location", match d.location with
      | some l => .string l
      | none => .null)]

def fileValue (f : SavedFile) : Value :=
  .ofMembers [("path", .string f.path), ("written", .bool f.written)]

/-- The document of a report. Files are in it only if there are any. -/
def document (r : SnippetReport) : Value :=
  .ofMembers
    ([("snippets", .array (r.snippets.map snippetValue)),
      ("diagnostics", .array (r.diagnostics.map fun (language, d) =>
        .ofMembers (("language", .string language) :: diagnosticMembers d)))]
      ++ (if r.files.isEmpty then [] else [("files", .array (r.files.map fileValue))]))

end SnippetReport

end SchemaSnippets.Report
