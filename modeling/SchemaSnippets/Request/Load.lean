import SchemaSnippets.Files.Tree
import SchemaSnippets.Request.Definition

/-!
# Loading requests

A request is a query with the type it returns and the type graph that describes the result. Loading
fails when the document cannot be read or when the query is blank; the latter error points at the
first place where the document spells the key `query`.

* `CodeRequest.load`: the request of a JSON text.
* `CodeRequest.ofFile`: the request that a file holds.
-/

namespace SchemaSnippets.Request
open Files Json Schema

/-- A loaded request. -/
structure CodeRequest where
  query : String
  returnType : QualifiedName
  graph : TypeGraph

/-- Why a request does not load. -/
inductive LoadError where
  | unreadableFile (path : String)
  | malformed
  | invalid (message : String) (span : Option Text.Span)
deriving DecidableEq, Repr

namespace LoadError

def message : LoadError → String
  | .unreadableFile path => s!"failed to read '{path}'"
  | .malformed => "failed to parse code generation request"
  | .invalid message _ => message

def code : LoadError → String
  | .unreadableFile _ => "typesnip::io_error"
  | .malformed => "typesnip::parse_error"
  | .invalid _ _ => "typesnip::validation_error"

def help? : LoadError → Option String
  | .malformed =>
    some "a request is \x7b query, returnType, schema: \x7b types, services \x7d \x7d"
  | _ => none

/-- The error about a key of the document. -/
def atKey (src key message : String) : LoadError :=
  .invalid message (Text.spanOfKey? src key)

end LoadError

/-- The request that a document describes, its query not being looked at. -/
def CodeRequest.ofEntry (e : RequestEntry) : CodeRequest :=
  ⟨e.query, e.returnType.name, e.graph⟩

/-- The request of a JSON text. -/
def CodeRequest.load (src : String) : Except LoadError CodeRequest :=
  match (Document.ofText? src).bind (RequestEntry.read? Document.maxDepth) with
  | none => .error .malformed
  | some e =>
    if Text.trim e.query = "" then .error (LoadError.atKey src "query" "query must not be empty")
    else .ok (CodeRequest.ofEntry e)

/-- The request that a file holds. -/
def CodeRequest.ofFile {m : Type → Type} [Monad m] [FileAccess m] (path : String) :
    m (Except LoadError CodeRequest) := do
  match ← FileAccess.readText? path with
  | none => return .error (.unreadableFile path)
  | some src => return CodeRequest.load src

end SchemaSnippets.Request
