import SchemaSnippets.Model.DeclarationNames
import SchemaSnippets.Model.Plan
import SchemaSnippets.Request.Load
import SchemaSnippets.Schema.Inheritance
import SchemaSnippets.Snippet.Diagnostic
import SchemaSnippets.Target.Profile

/-!
# Models

The declarations of a request for one language, before they are written: a record or enumeration for
each declaration of the plan, a place for each missing type, and the type of the query's result.

* `memberType`: the type of a member whose schema type is known.
* `recordDeclaration`, `enumDeclaration`: the declarations of a record and an enumeration.
* `SnippetModel.build`: the model of a request with all that was found on the way.
-/

namespace SchemaSnippets.Snippet
open Model Request Schema Target

/-- What the caller chooses: the client that runs the query, and whether documentation is shown. -/
structure Options where
  client : String
  docs : Bool
deriving DecidableEq, Repr

/-- What the declarations of one model have in common. -/
structure Context where
  naming : NameRules
  /-- The annotations that documentation shows. -/
  shownTags : List String
  graph : TypeGraph
  names : DeclarationNames
  recursive : List BackReference
  docs : Bool

/-! ## Documentation -/

/-- The lines of a documentation text, without blanks around them. -/
def trimmedLines (doc : String) : List String :=
  (Text.lines (Text.trim doc)).map Text.trim

/-- A number with its sign. -/
def signed (i : Int) : String :=
  if i < 0 then toString i else "+" ++ toString i

/-- A format in words. -/
def formatText (f : ValueFormat) : String :=
  let patterns := ", ".intercalate (f.patterns.map fun p => "`" ++ p ++ "`")
  "Format:" ++ (if f.patterns.isEmpty then "" else " " ++ patterns)
    ++ (match f.offset with
        | some offset => " (UTC offset " ++ signed offset ++ " minutes)"
        | none => "")

namespace Context
variable (c : Context)

/-- The documentation of a declaration. -/
def declarationDocs (t : SchemaType) : List String :=
  if c.docs then t.doc.toList.flatMap trimmedLines else []

/-- The format of an attribute: its own, else the one that its type inherits. -/
def shownFormat (a : Attribute) : Option ValueFormat :=
  a.format.or ((c.graph.resolve? a.type).bind c.graph.inheritedFormat)

/-- The documentation of a member: its own lines, its format, and its annotations. -/
def memberDocs (a : Attribute) : List String :=
  if c.docs then
    a.doc.toList.flatMap trimmedLines ++ (c.shownFormat a).toList.map formatText
      ++ (c.shownTags.filter a.hasMetadata).map fun tag => "@" ++ Unicode.lowercase tag
  else []

/-! ## Member types -/

/-- The name of a declaration. Every declaration of the plan is in the table. -/
def nameOf (t : SchemaType) : String :=
  (c.names.get? t.key).getD (c.naming.declarationName t.name.short)

/-- The type of a member of schema type `t`, the collections of `seen` being around it. -/
def memberType : Nat → List String → Option String → SchemaType → Findings → MemberType × Findings
  | 0, _, _, _, fs => (.untyped none, fs)
  | fuel + 1, seen, location, t, fs =>
    if t.key ∈ seen then (.untyped (some s!"self-containing collection {t.key}"), fs)
    else
      match t.kind with
      | .primitive k =>
        if k.isStructural then (.untyped (some s!"bare {k.name} without element type"), fs)
        else (.primitive k, fs)
      | .enumeration _ => (.named (c.nameOf t), fs)
      | .record _ => (.named (c.nameOf t), fs)
      | .scalar _ =>
        match c.graph.primitiveOf t with
        | .ok k =>
          if k.isStructural then (.untyped (some s!"{t.key} inherits from {k.name}"), fs)
          else (.primitive k, fs)
        | .error e => (.untyped (some e.message), fs.report (.schema e) location)
      | .collection e =>
        let (inner, fs) :=
          match c.graph.resolve e with
          | .ok t' => memberType fuel (t.key :: seen) location t' fs
          | .error e => (.untyped (some e.message), fs.reportNew (.schema e) location)
        (.array inner, fs)
      | .stream e =>
        let (inner, fs) :=
          match c.graph.resolve e with
          | .ok t' => memberType fuel (t.key :: seen) location t' fs
          | .error e => (.untyped (some e.message), fs.reportNew (.schema e) location)
        (.stream inner, fs)

/-- The type of a member of schema type `t`. Collections around each other have different keys. -/
def typeOf (location : Option String) (t : SchemaType) (fs : Findings) : MemberType × Findings :=
  c.memberType (c.graph.types.length + 2) [] location t fs

/-- Whether a member of the declaration `source` refers back to a record that encloses it. What is in
a collection does not. -/
def refersBack (source : String) (member : SchemaType) : Bool :=
  member.kind.isRecord && c.recursive.contains ⟨source, member.key⟩

/-- The type of an attribute, without regard to whether it may be null. A type that is missing has
been reported with the plan. -/
def attributeType (source : String) (location : String) (a : Attribute) (fs : Findings) :
    MemberType × Findings :=
  match c.graph.resolve a.type with
  | .ok member =>
    let (type, fs) := c.typeOf (some location) member fs
    (if c.refersBack source member then .recursive type else type, fs)
  | .error e => (.untyped (some e.message), fs)

/-! ## Declarations -/

/-- The fields of a record that is declared as `name`. -/
def membersOf (source name : String) : List Attribute → Findings → List RecordMember × Findings
  | [], fs => ([], fs)
  | a :: as, fs =>
    let (type, fs) := c.attributeType source (name ++ "." ++ a.name) a fs
    let type := if a.nullable then .optional type else type
    let (fields, fs) := membersOf source name as fs
    (⟨a.name, type, c.memberDocs a⟩ :: fields, fs)

def recordDeclaration (t : SchemaType) (fs : Findings) : RecordDeclaration × Findings :=
  let name := c.nameOf t
  let (fields, fs) := c.membersOf t.key name t.kind.attributes fs
  (⟨name, c.declarationDocs t, fields⟩, fs)

def enumMember (v : EnumValue) : EnumMember :=
  ⟨v.name, v.value, if c.docs then v.doc.toList.flatMap trimmedLines else []⟩

def enumDeclaration (t : SchemaType) (values : List EnumValue) : EnumDeclaration :=
  ⟨c.nameOf t, c.declarationDocs t, values.map c.enumMember⟩

end Context

/-- One place in a model. -/
inductive ModelEntry where
  | record (declaration : RecordDeclaration)
  | enumeration (declaration : EnumDeclaration)
  | missing (name : String)

/-- The entries for the places of a plan. -/
def Context.entries (c : Context) : List PlanItem → Findings → List ModelEntry × Findings
  | [], fs => ([], fs)
  | .missing name _ :: ps, fs =>
    let (entries, fs) := c.entries ps fs
    (.missing name :: entries, fs)
  | .declare t :: ps, fs =>
    match t.kind with
    | .enumeration values =>
      let (entries, fs) := c.entries ps fs
      (.enumeration (c.enumDeclaration t values) :: entries, fs)
    | _ =>
      let (declaration, fs) := c.recordDeclaration t fs
      let (entries, fs) := c.entries ps fs
      (.record declaration :: entries, fs)

/-! ## Models -/

structure SnippetModel where
  entries : List ModelEntry
  /-- Whether anything is declared. -/
  declares : Bool
  resultType : MemberType
  findings : Findings

namespace SnippetModel

/-- The context of a plan's declarations. -/
def context (p : Profile) (graph : TypeGraph) (plan : Plan) (docs : Bool) : Context :=
  { naming := p.naming
    shownTags := p.annotations
    graph := graph
    names := DeclarationNames.ofNames p.naming (plan.declarations.map (·.name))
    recursive := plan.recursive
    docs := docs }

/-- What a plan reports: its missing types, where they were first met, and its recursive references,
all by the names of declarations. -/
def planFindings (c : Context) (plan : Plan) : Findings :=
  let name (key : String) := (c.names.get? key).getD key
  let missing := plan.errors.foldl (fun fs e =>
    fs.report (.schema e) ((plan.referrer? e.subject).map name)) Findings.none
  plan.recursive.foldl (fun fs r =>
    fs.note ⟨.info, .plan, s!"recursive reference to {name r.target} is rendered by name",
      some (name r.source)⟩) missing

/-- The type of a query's result. -/
def resultTypeOf (c : Context) (n : QualifiedName) (fs : Findings) : MemberType × Findings :=
  match c.graph.resolve n with
  | .ok t => c.typeOf none t fs
  | .error e => (.untyped (some e.message), fs)

/-- The model of a request. -/
def build (p : Profile) (r : CodeRequest) (docs : Bool) : SnippetModel :=
  let plan := Plan.build r.graph r.returnType
  let c := context p r.graph plan docs
  let (entries, fs) := c.entries plan.entries (planFindings c plan)
  let (resultType, fs) := resultTypeOf c r.returnType fs
  ⟨entries, !plan.declarations.isEmpty, resultType, fs⟩

/-- The types of all members of declared records. -/
def memberTypes (m : SnippetModel) : List MemberType :=
  m.entries.flatMap fun
    | .record declaration => declaration.fields.map (·.type)
    | _ => []

end SnippetModel

end SchemaSnippets.Snippet
