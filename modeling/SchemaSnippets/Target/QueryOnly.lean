import SchemaSnippets.Target.Neutral

/-!
# Targets without a model

Two targets run a query and declare nothing: the body of a request in JSON, and a formula for a cell
of a spreadsheet.
-/

namespace SchemaSnippets.Target.QueryOnly
open Json Schema

/-- The profile of a target that only runs queries. -/
def profile (id extension : String) (query : QueryCall → String) : Profile :=
  { Neutral.profile id with
    extension := extension
    declaresModel := false
    imports := fun _ => ""
    query := query }

/-- The query and the name of the type it returns, as a JSON object. -/
def jsonBody (q : QueryCall) : String :=
  (Value.ofMembers [("query", .string q.query), ("returnType", .string q.returnType.key)]).pretty
    ++ "\n"

/-- The name of what a cell can show: `T[]` for an array of `T`, and nothing for what is streamed. -/
def cellName? : QualifiedName → Option String
  | ⟨full, scope, short, parameters⟩ =>
    match Primitive.ofFull? full, parameters with
    | some .stream, _ => none
    | some .array, [e] => (cellName? e).map (· ++ "[]")
    | _, ps => some (QualifiedName.key ⟨full, scope, short, ps⟩)

/-- A text inside the quotes of a formula: a quote is written twice. -/
def doubleQuotes (s : String) : String :=
  String.ofList (s.toList.flatMap fun c => if c = '"' then ['"', '"'] else [c])

/-- The notice for streams, which no cell can show. -/
def streamNotice : String :=
  "Streaming queries are not supported in Google Sheets\n"

/-- The formula that discovers the returned type. -/
def sheetFormula (q : QueryCall) : String :=
  match cellName? q.returnType with
  | some name => "=discover(\"" ++ doubleQuotes name ++ "\")\n"
  | none => streamNotice

def json : Profile :=
  profile "json" "json" jsonBody

def sheets : Profile :=
  profile "sheets" "txt" sheetFormula

end SchemaSnippets.Target.QueryOnly
