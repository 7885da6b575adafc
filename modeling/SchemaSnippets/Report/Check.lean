import SchemaSnippets.Model.Plan
import SchemaSnippets.Report.Console
import SchemaSnippets.Request.Load
import SchemaSnippets.Schema.Inheritance
import SchemaSnippets.Snippet.Diagnostic

/-!
# Checking requests

What would be replaced by placeholders in any language, found without making snippets: the missing
types of the plan, the scalars of the graph without a primitive, and recursive references. A message
is reported once.
-/

namespace SchemaSnippets.Report
open Model Request Schema Snippet

/-- What a check of a request finds. -/
structure CheckReport where
  path : String
  returnType : String
  typeCount : Nat
  declarations : List String
  /-- The services with the number of their operations. -/
  services : List (String × Nat)
  diagnostics : List Diagnostic

/-- The diagnostics without those whose message came before. -/
def firstMessages (ds : List Diagnostic) : List Diagnostic :=
  ds.foldl (fun kept d => if kept.any (·.message == d.message) then kept else kept ++ [d]) []

/-- The missing types of a plan, where they were first met. -/
def missingDiagnostics (plan : Plan) : List Diagnostic :=
  plan.errors.map fun e => (Failure.schema e).diagnostic (plan.referrer? e.subject)

/-- The scalars of a graph whose primitive cannot be found. -/
def scalarDiagnostics (g : TypeGraph) : List Diagnostic :=
  (g.types.filter (·.kind.isScalar)).filterMap fun t =>
    match g.primitiveOf t with
    | .ok _ => none
    | .error e => some ((Failure.schema e).diagnostic (some t.key))

/-- The recursive references of a plan. -/
def recursiveDiagnostics (plan : Plan) : List Diagnostic :=
  plan.recursive.map fun r =>
    ⟨.info, .plan, s!"{r.target} is referenced recursively", some r.source⟩

/-- The check of a request that was read from `path`. -/
def check (r : CodeRequest) (path : String) : CheckReport :=
  let plan := Plan.build r.graph r.returnType
  { path := path
    returnType := r.returnType.key
    typeCount := r.graph.types.length
    declarations := plan.declarations.map (·.key)
    services := r.graph.services.map fun s => (s.name.key, s.operations.length)
    diagnostics := firstMessages
      (missingDiagnostics plan ++ scalarDiagnostics r.graph ++ recursiveDiagnostics plan) }

namespace CheckReport

/-- Whether nothing is missing. -/
def isValid (c : CheckReport) : Bool :=
  !c.diagnostics.any (·.isError)

/-- A count with its noun. -/
def counted (n : Nat) (noun : String) : String :=
  toString n ++ " " ++ noun ++ (if n = 1 then "" else "s")

/-- A diagnostic with its location on a line below it. -/
def diagnosticLine (d : Diagnostic) : ConsoleLine :=
  let message := d.message ++ (match d.location with
    | some l => "\n  --> " ++ l
    | none => "")
  match d.severity with
  | .error => .error message
  | .warning => .warning message
  | .info => .out ("info: " ++ message)

/-- A section after an empty line, unless it has no items. -/
def listSection (heading : ConsoleLine) (items : List String) : List ConsoleLine :=
  if items.isEmpty then [] else [ConsoleLine.blank, heading] ++ items.map ConsoleLine.item

/-- What is said about a valid request. -/
def summary (c : CheckReport) : List ConsoleLine :=
  [.out ("✓ " ++ c.path ++ " is valid"), .blank, .keyValue "returns" c.returnType,
      .keyValue "types" (toString c.typeCount)]
    ++ listSection (.heading (counted c.declarations.length "declaration")) c.declarations
    ++ listSection (.heading "Services")
        (c.services.map fun (name, n) => name ++ " (" ++ counted n "operation" ++ ")")

def lines (c : CheckReport) : List ConsoleLine :=
  c.diagnostics.map diagnosticLine
    ++ (if c.diagnostics.isEmpty then [] else [ConsoleLine.blank])
    ++ (if c.isValid then c.summary else [])

end CheckReport

end SchemaSnippets.Report
