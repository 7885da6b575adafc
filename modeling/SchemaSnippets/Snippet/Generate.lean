import SchemaSnippets.Snippet.Model
import SchemaSnippets.Target.Basic

/-!
# Snippets

For each request and target a `model` snippet, which declares the types of the result, and a `query`
snippet, which runs the query. A target without a model, and a result that needs no declaration, have
the query alone.
-/

namespace SchemaSnippets.Snippet
open Model Request Schema Target

/-- A labelled block of code. -/
structure CodeSnippet where
  label : String
  language : String
  content : String
deriving DecidableEq, Repr

/-- Snippets with all that was found while making them. -/
structure Output where
  snippets : List CodeSnippet
  findings : Findings
deriving DecidableEq, Repr

def modelLabel : String := "model"

def queryLabel : String := "query"

namespace Output

def hasErrors (o : Output) : Bool :=
  o.findings.diagnostics.any (·.isError)

end Output

/-! ## Unsupported primitives -/

/-- The primitives of a model that a language has no type for, in the order of their first use. -/
def unsupported (s : TypeSyntax) (m : SnippetModel) : List Primitive :=
  (((m.memberTypes ++ [m.resultType]).flatMap (·.primitives)).filter
    fun k => (s.primitive k).isNone).eraseDups

/-- The line that stands for an unsupported primitive. -/
def unsupportedLine (s : TypeSyntax) (k : Primitive) : String :=
  lineComment (unsupportedNote k ++ ": rendered as " ++ s.untyped) ++ "\n"

/-! ## The model snippet -/

/-- The line that stands for a missing declaration. -/
def missingLine (name : String) : String :=
  lineComment s!"unknown type '{name}': declaration skipped" ++ "\n"

def entryText (p : Profile) : ModelEntry → String
  | .record declaration => p.declarations.record declaration
  | .enumeration declaration => p.declarations.enumeration declaration
  | .missing name => missingLine name

/-- What a model imports: what every model of the language does, and what its members need. -/
def importsOf (p : Profile) (m : SnippetModel) : Imports :=
  Imports.empty.addAll (p.alwaysImported ++ m.memberTypes.flatMap p.types.needs)

/-- The sections of a model: imports, unsupported primitives, and then the declarations. -/
def sections (p : Profile) (m : SnippetModel) : List String :=
  let imports := importsOf p m
  let kinds := unsupported p.types m
  (if m.declares && !imports.isEmpty then [p.imports imports] else [])
    ++ (if kinds.isEmpty then [] else [String.join (kinds.map (unsupportedLine p.types))])
    ++ m.entries.map (entryText p)

/-- Sections with one empty line between them. -/
def joinSections (ss : List String) : String :=
  "\n\n".intercalate (ss.map Text.trimEndFeeds) ++ "\n"

/-- The text of the model snippet, unless it has no sections. -/
def modelText? (p : Profile) (m : SnippetModel) : Option String :=
  match sections p m with
  | [] => none
  | ss => some (joinSections ss)

/-! ## Making snippets -/

/-- The call that runs the query of a request. -/
def callOf (r : CodeRequest) (options : Options) (resultType : String) : QueryCall :=
  ⟨Text.trim r.query, r.returnType, resultType, options.client⟩

/-- The snippet of a target without a model. -/
def withoutModel (p : Profile) (r : CodeRequest) (options : Options) : Output :=
  ⟨[⟨queryLabel, p.id, p.query (callOf r options r.returnType.key)⟩], Findings.none⟩

/-- The snippets of a target with a model. -/
def withModel (p : Profile) (r : CodeRequest) (options : Options) : Output :=
  let m := SnippetModel.build p r options.docs
  let fs := (unsupported p.types m).foldl
    (fun fs k => fs.report (.unsupportedPrimitive p.id k) none) m.findings
  let model := (modelText? p m).toList.map (CodeSnippet.mk modelLabel p.id)
  let query := p.query (callOf r options (p.types.render m.resultType))
  ⟨model ++ [⟨queryLabel, p.id, query⟩], fs⟩

/-- The snippets of a request for a target. -/
def generate (t : Target) (r : CodeRequest) (options : Options) : Output :=
  let p := t.profile
  if p.declaresModel then withModel p r options else withoutModel p r options

end SchemaSnippets.Snippet
