import SchemaSnippets.Schema.Graph

/-!
# Diagnostics

Making snippets never fails: what cannot be declared or typed is replaced by a placeholder and
reported. Each failure has a severity and belongs to a phase of the work.
-/

namespace SchemaSnippets.Snippet
open Schema

/-- How much of the output is affected: a part is missing, a part is less exact, or nothing. -/
inductive Severity where
  | error | warning | info
deriving DecidableEq, Repr

/-- What was being done: planning declarations, resolving a primitive, or mapping it to a language. -/
inductive Phase where
  | plan | resolve | map
deriving DecidableEq, Repr

structure Diagnostic where
  severity : Severity
  phase : Phase
  message : String
  /-- The part of the output that it is about, such as `Film.title`. -/
  location : Option String
deriving DecidableEq, Repr

/-- A failure that was replaced by a placeholder. -/
inductive Failure where
  | schema (error : SchemaError)
  | unsupportedPrimitive (language : String) (kind : Primitive)
deriving DecidableEq, Repr

def Severity.name : Severity → String
  | .error => "error"
  | .warning => "warning"
  | .info => "info"

def Phase.name : Phase → String
  | .plan => "plan"
  | .resolve => "resolve"
  | .map => "map"

namespace Failure

def message : Failure → String
  | .schema e => e.message
  | .unsupportedPrimitive language kind =>
    language ++ " has no mapping for primitive " ++ kind.name

def severity : Failure → Severity
  | .schema (.unknownType _) => .error
  | .schema (.cyclicInheritance _ _) => .warning
  | .unsupportedPrimitive _ _ => .warning

def phase : Failure → Phase
  | .schema (.unknownType _) => .plan
  | .schema (.cyclicInheritance _ _) => .resolve
  | .unsupportedPrimitive _ _ => .map

def diagnostic (f : Failure) (location : Option String) : Diagnostic :=
  ⟨f.severity, f.phase, f.message, location⟩

end Failure

namespace Diagnostic

/-- The diagnostic on one line. -/
def text (d : Diagnostic) : String :=
  d.severity.name ++ ": " ++ d.message
    ++ (match d.location with
        | some l => " (at " ++ l ++ ")"
        | none => "")

def isError (d : Diagnostic) : Bool :=
  d.severity = .error

end Diagnostic

/-- What was found while making snippets: every diagnostic, and each different failure once, both in
the order in which they were met. -/
structure Findings where
  diagnostics : List Diagnostic
  failures : List Failure
deriving DecidableEq, Repr

namespace Findings

def none : Findings := ⟨[], []⟩

/-- Notes a diagnostic that is no failure. -/
def note (fs : Findings) (d : Diagnostic) : Findings :=
  { fs with diagnostics := fs.diagnostics ++ [d] }

def report (fs : Findings) (f : Failure) (location : Option String) : Findings :=
  ⟨fs.diagnostics ++ [f.diagnostic location],
    if f ∈ fs.failures then fs.failures else fs.failures ++ [f]⟩

/-- Reports a failure unless it was met before. -/
def reportNew (fs : Findings) (f : Failure) (location : Option String) : Findings :=
  if f ∈ fs.failures then fs else fs.report f location

end Findings

end SchemaSnippets.Snippet
