import SchemaSnippets.Target.Profile
import SchemaSnippets.Target.Naming.Rust
import SchemaSnippets.Text.Quoted

/-!
# Rust

Records are structures and enumerations are enumerations, both with derived serialization. Attributes
bind the converted names to the names in the data: one for all members where their camel case is what
the data has, and otherwise one for each member that differs. Streams are collected into vectors.

A raw string ends at a quote with as many hashes behind it as stand before it, so it gets one more
than any quote in the text has.
-/

namespace SchemaSnippets.Target.Rust
open Code Json Model Schema Text

/-! ## Literals -/

/-- The longest run of hashes behind a quote. -/
def longestHashes : List Char → Nat
  | [] => 0
  | c :: cs =>
    if c = '"' then max (cs.takeWhile (· == '#')).length (longestHashes cs) else longestHashes cs

/-- The hashes around a raw string. -/
def hashes (cs : List Char) : List Char :=
  List.replicate (longestHashes cs + 1) '#'

/-- A text as a raw string. -/
def rawString (s : String) : String :=
  let cs := s.toList
  String.ofList ('r' :: hashes cs ++ '"' :: cs ++ '"' :: hashes cs)

/-! ## Names and types -/

def primitive : Primitive → Option String
  | .string => some "String"
  | .int => some "i64"
  | .decimal => some "Decimal"
  | .double => some "f64"
  | .boolean => some "bool"
  | .date => some "NaiveDate"
  | .time => some "NaiveTime"
  | .dateTime => some "NaiveDateTime"
  | .instant => some "DateTime<Utc>"
  | .any => some "serde_json::Value"
  | .void => some "()"
  | .array => none
  | .stream => none

def primitiveNeeds : Primitive → List Import
  | .decimal => [("rust_decimal", "Decimal")]
  | .date => [("chrono", "NaiveDate")]
  | .time => [("chrono", "NaiveTime")]
  | .dateTime => [("chrono", "NaiveDateTime")]
  | .instant => [("chrono", "DateTime"), ("chrono", "Utc")]
  | _ => []

def types : TypeSyntax where
  primitive := primitive
  optional t := "Option<" ++ t ++ ">"
  array t := "Vec<" ++ t ++ ">"
  stream t := "Vec<" ++ t ++ ">"
  recursive t := "Box<" ++ t ++ ">"
  untyped := "serde_json::Value"
  primitiveNeeds := primitiveNeeds
  streamNeeds := []

/-! ## Attributes and documentation -/

/-- The attribute that binds one name. -/
def renameAttribute (name : String) : String :=
  "#[serde(rename = " ++ quoted name ++ ")]"

/-- The attribute that binds all members of a record by their camel case. -/
def camelCaseAttribute : String :=
  "#[serde(rename_all = \"camelCase\")]"

def recordDerives : String :=
  "#[derive(Debug, Clone, Serialize, Deserialize)]"

def enumDerives : String :=
  "#[derive(Debug, Clone, Copy, PartialEq, Eq, Serialize, Deserialize)]"

def numberedEnumDerives : String :=
  "#[derive(Debug, Clone, Copy, PartialEq, Eq, serde_repr::Serialize_repr, serde_repr::Deserialize_repr)]"

/-- Each line of documentation as a comment. -/
def docs (w : Writer) (lines : List String) : Writer :=
  w.each lines fun w l => w.line ("/// " ++ l)

/-! ## Records -/

/-- The member names of a record, in the order of its fields. -/
def fieldNames (s : RecordDeclaration) : List String :=
  tellApart (s.fields.map fun f => naming.memberName f.name) "_"

/-- Whether the camel case of every member is the name of its field, and some member differs from its
field's name. -/
def bindsByCamelCase (members : List (RecordMember × String)) : Bool :=
  members.all (fun (f, m) => camel (withoutMark m) == f.name) &&
    members.any fun (f, m) => withoutMark m != f.name

/-- Writes a member. `bound` tells that an attribute of the record binds all members. -/
def member (bound : Bool) (w : Writer) (f : RecordMember) (name : String) : Writer :=
  let w := docs w f.docs
  let w := if !bound && withoutMark name != f.name then w.line (renameAttribute f.name) else w
  w.line ("pub " ++ name ++ ": " ++ types.render f.type ++ ",")

def record (s : RecordDeclaration) : String :=
  let members := s.fields.zip (fieldNames s)
  let bound := bindsByCamelCase members
  let w := (docs (Writer.empty 4) s.docs).line recordDerives
  let w := if bound then w.line camelCaseAttribute else w
  let header := "pub struct " ++ s.name
  if s.fields.isEmpty then (w.line (header ++ " \x7b\x7d")).text
  else
    (w.block (header ++ " \x7b") "\x7d" fun w =>
      w.each members fun w (f, name) => member bound w f name).text

/-! ## Enumerations -/

/-- The name in the data that a member stands for: its text, or the text of a value that is no integer
of 64 bits. -/
def wireName? (v : EnumMember) : Option String :=
  match v.value.text? with
  | some s => some s
  | none => if v.value.int64?.isSome then none else some v.value.text

/-- Writes a member, an integer being its discriminant. -/
def constant (w : Writer) (v : EnumMember) (name : String) : Writer :=
  let w := docs w v.docs
  let w :=
    match wireName? v with
    | some wire => if wire != name then w.line (renameAttribute wire) else w
    | none => w
  match v.value.int64? with
  | some i => w.line (name ++ " = " ++ toString i ++ ",")
  | none => w.line (name ++ ",")

/-- Whether all values are integers of 64 bits, so that members are serialized as numbers. -/
def isNumbered (s : EnumDeclaration) : Bool :=
  !s.members.isEmpty && s.members.all (·.value.int64?.isSome)

/-- The names of an enumeration's members, in order. -/
def constantNames (s : EnumDeclaration) : List String :=
  tellApart (s.members.map fun v => constantName v.name) ""

def enumeration (s : EnumDeclaration) : String :=
  let w := docs (Writer.empty 4) s.docs
  let w :=
    if isNumbered s then (w.line numberedEnumDerives).line "#[repr(i64)]" else w.line enumDerives
  let header := "pub enum " ++ s.name
  if s.members.isEmpty then (w.line (header ++ " \x7b\x7d")).text
  else
    (w.block (header ++ " \x7b") "\x7d" fun w =>
      w.each (s.members.zip (constantNames s)) fun w (v, name) => constant w v name).text

def declarations : DeclarationSyntax where
  record := record
  enumeration := enumeration
  field f := (member false (Writer.empty 4).indent f (naming.memberName f.name)).text
  constant v := (constant (Writer.empty 4).indent v (constantName v.name)).text

/-! ## Imports and queries -/

def importLine (module : String) (symbols : List String) : String :=
  match symbols with
  | [] => "use " ++ module ++ ";"
  | [symbol] => "use " ++ module ++ "::" ++ symbol ++ ";"
  | symbols => "use " ++ module ++ "::\x7b" ++ commaList symbols ++ "\x7d;"

/-- The modules in increasing order. -/
def sortedModules (i : Imports) : List (String × List String) :=
  i.modules.foldl (fun ms (module, symbols) => Data.insertEntry module symbols ms) []

def imports (i : Imports) : String :=
  ((Writer.empty 4).each (sortedModules i) fun w (module, symbols) =>
    w.line (importLine module symbols)).text

def query (q : QueryCall) : String :=
  ((((Writer.empty 4).line ("const QUERY: &str = " ++ rawString q.query ++ ";")).blank).line
    ("let result = " ++ q.client ++ ".query::<" ++ q.resultType ++ ">(QUERY).await?;")).text

def profile : Profile where
  id := "rust"
  extension := "rs"
  naming := naming
  types := types
  declarations := declarations
  declaresModel := true
  annotations := []
  alwaysImported := [("serde", "Deserialize"), ("serde", "Serialize")]
  imports := imports
  query := query

end SchemaSnippets.Target.Rust
