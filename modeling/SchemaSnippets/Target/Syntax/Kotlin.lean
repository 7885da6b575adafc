import SchemaSnippets.Target.Profile

/-!
# Kotlin

Records are data classes with a property for each attribute, enumerations are enum classes that carry
their values unless these are the names of the constants, and streams are flows.

A string literal stands in double quotes and escapes what would begin a template. A raw string stands
between triple quotes and has no escapes: a dollar sign, and the last of three quotes in a row, are
written as templates of a character.
-/

namespace SchemaSnippets.Target.Kotlin
open Code Json Model Schema

/-! ## Literals -/

/-- A character inside double quotes. -/
def quoteChar (c : Char) : List Char :=
  if c = '\\' then ['\\', '\\']
  else if c = '"' then ['\\', '"']
  else if c = '$' then ['\\', '$']
  else [c]

/-- A text as a string literal. -/
def quote (s : String) : String :=
  String.ofList ('"' :: s.toList.flatMap quoteChar ++ ['"'])

/-- A template that stands for the character `c`. -/
def charTemplate (c : Char) : List Char :=
  ['$', '\x7b', '\'', c, '\'', '\x7d']

/-- The characters between triple quotes. -/
def rawChars : List Char → List Char
  | [] => []
  | '"' :: '"' :: '"' :: cs => '"' :: '"' :: (charTemplate '"' ++ rawChars cs)
  | c :: cs => (if c = '$' then charTemplate '$' else [c]) ++ rawChars cs

/-- The quotes around a raw string. -/
def tripleQuote : List Char :=
  ['"', '"', '"']

/-- A text as a raw string. -/
def rawString (s : String) : String :=
  String.ofList (tripleQuote ++ rawChars s.toList ++ tripleQuote)

/-! ## Names and types -/

/-- The hard keywords of the language, and the types that the generated code refers to. -/
def reserved : List String :=
  ["as", "break", "class", "continue", "do", "else", "false", "for", "fun", "if", "in", "interface",
    "is", "null", "object", "package", "return", "super", "this", "throw", "true", "try",
    "typealias", "typeof", "val", "var", "when", "while",
    "Any", "Boolean", "Double", "Flow", "Int", "List", "Nothing", "String", "Unit"]

/-- A name between backticks, which a name cannot hold. -/
def backticked (name : String) : String :=
  String.ofList ('\x60' :: name.toList.filter (· != '\x60') ++ ['\x60'])

def naming : NameRules where
  caseOfDeclarations := Text.pascal
  caseOfMembers := id
  reserved := reserved
  membersMayBeReserved := false
  escape := backticked

def primitive : Primitive → Option String
  | .string => some "String"
  | .int => some "Int"
  | .decimal => some "BigDecimal"
  | .double => some "Double"
  | .boolean => some "Boolean"
  | .date => some "LocalDate"
  | .time => some "LocalTime"
  | .dateTime => some "LocalDateTime"
  | .instant => some "Instant"
  | .any => some "Any"
  | .void => some "Unit"
  | .array => none
  | .stream => none

def primitiveNeeds : Primitive → List Import
  | .decimal => [("java.math", "BigDecimal")]
  | .date => [("java.time", "LocalDate")]
  | .time => [("java.time", "LocalTime")]
  | .dateTime => [("java.time", "LocalDateTime")]
  | .instant => [("java.time", "Instant")]
  | _ => []

/-- What stands before and after the first place where a comment begins. -/
def splitComment? : List Char → Option (List Char × List Char)
  | [] => none
  | ' ' :: '/' :: '*' :: ' ' :: cs => some ([], cs)
  | c :: cs => (splitComment? cs).map fun (before, after) => (c :: before, after)

/-- A nullable type. The mark belongs to the type and not to a comment behind it. -/
def nullable (t : String) : String :=
  match splitComment? t.toList with
  | some (type, comment) => String.ofList (type ++ ['?', ' ', '/', '*', ' '] ++ comment)
  | none => t ++ "?"

def types : TypeSyntax where
  primitive := primitive
  optional := nullable
  array t := "List<" ++ t ++ ">"
  stream t := "Flow<" ++ t ++ ">"
  recursive t := t
  untyped := "Any"
  primitiveNeeds := primitiveNeeds
  streamNeeds := [("kotlinx.coroutines.flow", "Flow")]

/-- A constructor property. -/
def field (f : RecordMember) : String :=
  (((Writer.empty 4).indent.docComment f.docs).line
    ("val " ++ naming.memberName f.name ++ ": " ++ types.render f.type ++ ",")).text

def record (s : RecordDeclaration) : String :=
  let w := (Writer.empty 4).docComment s.docs
  if s.fields.isEmpty then (w.line ("class " ++ s.name)).text
  else
    (w.block ("data class " ++ s.name ++ "(") ")" fun w =>
      w.each s.fields fun w f => w.raw (field f)).text

/-! ## Enumerations -/

/-- How the constants of an enumeration carry their values. -/
inductive Carrier where
  | name | int | long | string
deriving DecidableEq, Repr

/-- Whether the value of a member is its own name. -/
def isOwnName (v : EnumMember) : Bool :=
  v.value.text? == some v.name

/-- Whether the value is an integer of 32 bits. -/
def isInt32 (v : EnumMember) : Bool :=
  v.value.int64?.any fun i => -2147483648 ≤ i && i ≤ 2147483647

/-- The narrowest carrier that holds the values of all members. -/
def carrier (vs : List EnumMember) : Carrier :=
  if vs.all isOwnName then .name
  else if vs.all isInt32 then .int
  else if vs.all (·.value.int64?.isSome) then .long
  else .string

/-- The property that carries the values. -/
def Carrier.property : Carrier → String
  | .name => ""
  | .int => "(val value: Int)"
  | .long => "(val value: Long)"
  | .string => "(val value: String)"

/-- The argument of a constant. -/
def argument (c : Carrier) (v : EnumMember) : String :=
  match c with
  | .name => ""
  | .int => "(" ++ v.value.text ++ ")"
  | .long => "(" ++ v.value.text ++ ")"
  | .string => "(" ++ quote (v.value.text?.getD v.value.text) ++ ")"

def constant (c : Carrier) (v : EnumMember) : String :=
  (((Writer.empty 4).indent.docComment v.docs).line
    (naming.memberName v.name ++ argument c v ++ ",")).text

def enumeration (s : EnumDeclaration) : String :=
  let w := (Writer.empty 4).docComment s.docs
  let header := "enum class " ++ s.name
  let c := carrier s.members
  if s.members.isEmpty then (w.line header).text
  else
    (w.block (header ++ c.property ++ " \x7b") "\x7d" fun w =>
      w.each s.members fun w v => w.raw (constant c v)).text

def declarations : DeclarationSyntax where
  record := record
  enumeration := enumeration
  field := field
  constant v := constant (if isOwnName v then .name else .string) v

/-! ## Imports and queries -/

/-- The import lines of a module: one for each symbol, or one for all of them. -/
def importLines (module : String) (symbols : List String) : List String :=
  if symbols.isEmpty then ["import " ++ module ++ ".*"]
  else symbols.map fun symbol => "import " ++ module ++ "." ++ symbol

def imports (i : Imports) : String :=
  ((Writer.empty 4).each i.modules fun w (module, symbols) =>
    w.each (importLines module symbols) Writer.line).text

def query (q : QueryCall) : String :=
  ((((Writer.empty 4).line ("val query = " ++ rawString q.query)).blank).line
    ("val result = " ++ q.client ++ ".query<" ++ q.resultType ++ ">(query)")).text

def profile : Profile where
  id := "kotlin"
  extension := "kt"
  naming := naming
  types := types
  declarations := declarations
  declaresModel := true
  annotations := ["Id"]
  alwaysImported := []
  imports := imports
  query := query

end SchemaSnippets.Target.Kotlin
