import SchemaSnippets.Target.Neutral

/-!
# TypeScript

Records are exported interfaces, enumerations are unions of literal types, and streams are
observables. Members keep the names of the schema, in quotes where these are no identifiers, so they
match the data.

A string literal stands in single quotes, a template literal in backticks. A template may hold line
ends; what would begin a substitution in it is escaped.
-/

namespace SchemaSnippets.Target.TypeScript
open Code Model Schema

/-! ## Literals -/

/-- A character inside single quotes. -/
def quoteChar (c : Char) : List Char :=
  if c = '\\' then ['\\', '\\'] else if c = '\'' then ['\\', '\''] else [c]

/-- A text as a string literal. -/
def quote (s : String) : String :=
  String.ofList ('\'' :: s.toList.flatMap quoteChar ++ ['\''])

/-- The characters inside backticks. -/
def templateChars : List Char → List Char
  | [] => []
  | '$' :: '\x7b' :: cs => '\\' :: '$' :: '\x7b' :: templateChars cs
  | c :: cs =>
    if c = '\\' then '\\' :: '\\' :: templateChars cs
    else if c = '\x60' then '\\' :: '\x60' :: templateChars cs
    else c :: templateChars cs

/-- A text as a template literal. -/
def template (s : String) : String :=
  String.ofList ('\x60' :: templateChars s.toList ++ ['\x60'])

/-- The value of an enumeration's member as a literal type. -/
def literal (v : EnumMember) : String :=
  match v.value.text? with
  | some s => quote s
  | none => v.value.text

/-! ## Names and types -/

/-- The keywords of the language, and the names of its types that a declaration must not hide. -/
def reserved : List String :=
  ["break", "case", "catch", "class", "const", "continue", "debugger", "default", "delete", "do",
    "else", "enum", "export", "extends", "false", "finally", "for", "function", "if", "import",
    "in", "instanceof", "let", "new", "null", "return", "super", "switch", "this", "throw", "true",
    "try", "typeof", "var", "void", "while", "with", "yield",
    "Any", "Array", "Boolean", "Date", "Function", "Number", "Object", "Observable", "Promise",
    "String", "Symbol"]

def naming : NameRules where
  caseOfDeclarations := Text.pascal
  caseOfMembers := id
  reserved := reserved
  membersMayBeReserved := true
  escape := quote

/-- Dates and times are texts in the data. -/
def primitive : Primitive → Option String
  | .string => some "string"
  | .int => some "number"
  | .decimal => some "number"
  | .double => some "number"
  | .boolean => some "boolean"
  | .date => some "string"
  | .time => some "string"
  | .dateTime => some "string"
  | .instant => some "string"
  | .any => some "any"
  | .void => some "void"
  | .array => none
  | .stream => none

/-- An array; an element type of several words stands in parentheses, for the brackets bind to the
last word. -/
def array (t : String) : String :=
  if t.toList.contains ' ' then "(" ++ t ++ ")[]" else t ++ "[]"

def types : TypeSyntax where
  primitive := primitive
  optional t := t ++ " | undefined"
  array := array
  stream t := "Observable<" ++ t ++ ">"
  recursive t := t
  untyped := "any"
  primitiveNeeds _ := []
  streamNeeds := [("rxjs", "Observable")]

/-- A property; an optional one is marked at its name. -/
def field (f : RecordMember) : String :=
  let (mark, type) := Neutral.splitOptional f.type
  (((Writer.empty 2).indent.docComment f.docs).line
    (naming.memberName f.name ++ mark ++ ": " ++ types.render type ++ ";")).text

def record (s : RecordDeclaration) : String :=
  let w := (Writer.empty 2).docComment s.docs
  let header := "export interface " ++ s.name
  if s.fields.isEmpty then (w.line (header ++ " \x7b\x7d")).text
  else
    (w.block (header ++ " \x7b") "\x7d" fun w =>
      w.each s.fields fun w f => w.raw (field f)).text

/-- A member of a union on a line of its own, with what ends the line. -/
def unionMember (v : EnumMember) (lineEnd : String) : String :=
  (((Writer.empty 2).indent.docComment v.docs).line ("| " ++ literal v ++ lineEnd)).text

/-- The members of a union on lines of their own; the last line ends the declaration. -/
def unionMembers : List EnumMember → List String
  | [] => []
  | [v] => [unionMember v ";"]
  | v :: vs => unionMember v "" :: unionMembers vs

/-- A union of literals. It takes one line unless a member is documented. -/
def enumeration (s : EnumDeclaration) : String :=
  let w := (Writer.empty 2).docComment s.docs
  let header := "export type " ++ s.name ++ " ="
  if s.members.isEmpty then (w.line (header ++ " never;")).text
  else if s.members.all (·.docs.isEmpty) then
    (w.line (header ++ " " ++ " | ".intercalate (s.members.map literal) ++ ";")).text
  else ((w.line header).each (unionMembers s.members) Writer.raw).text

def declarations : DeclarationSyntax where
  record := record
  enumeration := enumeration
  field := field
  constant v := unionMember v ""

def importLine (module : String) (symbols : List String) : String :=
  if symbols.isEmpty then "import '" ++ module ++ "';"
  else "import \x7b " ++ commaList symbols ++ " \x7d from '" ++ module ++ "';"

def imports (i : Imports) : String :=
  ((Writer.empty 2).each i.modules fun w (module, symbols) => w.line (importLine module symbols)).text

def query (q : QueryCall) : String :=
  ((((Writer.empty 2).line ("const query = " ++ template q.query ++ ";")).blank).line
    ("const result = " ++ q.client ++ ".query<" ++ q.resultType ++ ">(query);")).text

def profile : Profile where
  id := "typescript"
  extension := "ts"
  naming := naming
  types := types
  declarations := declarations
  declaresModel := true
  annotations := ["Id"]
  alwaysImported := []
  imports := imports
  query := query

end SchemaSnippets.Target.TypeScript
