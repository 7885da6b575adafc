import SchemaSnippets.Files.Tree
import SchemaSnippets.Report.Snippets

/-!
# Producing snippets

The snippets of a request for a list of languages, one after the other. When they are to be written,
each goes to a file named for its label in a directory named for the language, and the first file that
cannot be written ends the work.
-/

namespace SchemaSnippets.Report
open Files Request Snippet

/-- Where snippets are written, and whether they replace what is there. -/
structure Destination where
  directory : String
  force : Bool
deriving DecidableEq, Repr

/-- The path of a snippet's file. -/
def snippetPath (d : Destination) (t : Target) (s : CodeSnippet) : String :=
  join (join d.directory t.id) (s.label ++ "." ++ t.profile.extension)

variable {m : Type → Type} [Monad m] [FileAccess m]

/-- Writes snippets, up to the first that cannot be written. -/
def saveSnippets (d : Destination) (t : Target) :
    List CodeSnippet → m (Except SaveError (List SavedFile))
  | [] => return .ok []
  | s :: ss => do
    let path := snippetPath d t s
    match ← FileAccess.save (!d.force) path s.content with
    | .error e => return .error e
    | .ok written =>
      match ← saveSnippets d t ss with
      | .error e => return .error e
      | .ok files => return .ok (⟨path, written⟩ :: files)

/-- What is produced for each language. -/
def produceFrom (r : CodeRequest) (options : Options) (d : Option Destination) :
    List String → m (Except SaveError (List LanguageReport))
  | [] => return .ok []
  | id :: ids => do
    let t := Target.ofId id
    let output := generate t r options
    let saved ← match d with
      | some d => saveSnippets d t output.snippets
      | none => pure (.ok [])
    match saved with
    | .error e => return .error e
    | .ok files =>
      match ← produceFrom r options d ids with
      | .error e => return .error e
      | .ok reports => return .ok (⟨t.id, output, files⟩ :: reports)

/-- The report of the snippets of a request. -/
def produce (r : CodeRequest) (languages : List String) (options : Options)
    (d : Option Destination) : m (Except SaveError SnippetReport) := do
  match ← produceFrom r options d languages with
  | .error e => return .error e
  | .ok reports => return .ok ⟨reports⟩

end SchemaSnippets.Report
