import SchemaSnippets.Target.Profile

/-!
# The neutral syntax

A syntax for languages that have none of their own here. It has no type for any primitive, so every
primitive is written as the general type with a comment.
-/

namespace SchemaSnippets.Target.Neutral
open Code Model

/-- Members keep their names; what is no identifier stands in quotes. -/
def naming : NameRules where
  caseOfDeclarations := Text.pascal
  caseOfMembers := id
  reserved := []
  membersMayBeReserved := true
  escape name := "\"" ++ name ++ "\""

def types : TypeSyntax where
  primitive _ := none
  optional t := t ++ "?"
  array t := t ++ "[]"
  stream t := "Stream<" ++ t ++ ">"
  recursive t := t
  untyped := "any"
  primitiveNeeds _ := []
  streamNeeds := []

/-- The mark of an optional member and the type behind it. -/
def splitOptional : MemberType → String × MemberType
  | .optional t => ("?", t)
  | t => ("", t)

def field (f : RecordMember) : String :=
  let (mark, type) := splitOptional f.type
  (((Writer.empty 2).indent.docComment f.docs).line
    (naming.memberName f.name ++ mark ++ ": " ++ types.render type)).text

def record (s : RecordDeclaration) : String :=
  let w := (Writer.empty 2).docComment s.docs
  if s.fields.isEmpty then (w.line ("type " ++ s.name ++ " \x7b\x7d")).text
  else
    (w.block ("type " ++ s.name ++ " \x7b") "\x7d" fun w =>
      w.each s.fields fun w f => w.raw (field f)).text

def enumeration (s : EnumDeclaration) : String :=
  (((Writer.empty 2).docComment s.docs).line
    ("enum " ++ s.name ++ " \x7b " ++ commaList (s.members.map (·.name)) ++ " \x7d")).text

def declarations : DeclarationSyntax where
  record := record
  enumeration := enumeration
  field := field
  constant v := v.name

def imports (i : Imports) : String :=
  ((Writer.empty 2).each i.modules fun w (module, symbols) =>
    w.line ("import " ++ module ++ ".\x7b" ++ commaList symbols ++ "\x7d")).text

/-- A comment that names the result, then the query. -/
def query (q : QueryCall) : String :=
  (((Writer.empty 2).line (lineComment ("Result: " ++ q.resultType))).lines q.query).text

/-- The neutral syntax under the name of a language. -/
def profile (id : String) : Profile where
  id := id
  extension := "txt"
  naming := naming
  types := types
  declarations := declarations
  declaresModel := true
  annotations := []
  alwaysImported := []
  imports := imports
  query := query

end SchemaSnippets.Target.Neutral
