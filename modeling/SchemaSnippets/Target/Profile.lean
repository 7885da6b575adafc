import SchemaSnippets.Code.Writer
import SchemaSnippets.Model.Declaration
import SchemaSnippets.Target.Naming
import SchemaSnippets.Target.TypeSyntax

/-!
# Language profiles

All that a target language decides: the spelling of names, types, declarations, imports and of the
call that runs a query. What is declared, and in which order, is the same for every language.
-/

namespace SchemaSnippets.Target
open Model Schema

/-- How declarations and their members are written. Each text is made of whole lines, except for a
member of an enumeration that stands inside a line. -/
structure DeclarationSyntax where
  record : RecordDeclaration → String
  enumeration : EnumDeclaration → String
  field : RecordMember → String
  constant : EnumMember → String

/-- A query to be run: its text, the type that it returns as the schema names it and as the language
writes it, and the client that runs it. -/
structure QueryCall where
  query : String
  returnType : QualifiedName
  resultType : String
  client : String

structure Profile where
  id : String
  extension : String
  naming : NameRules
  types : TypeSyntax
  declarations : DeclarationSyntax
  /-- Whether the language declares the types of a result, or only runs the query. -/
  declaresModel : Bool
  /-- The annotations that documentation shows. -/
  annotations : List String
  /-- What every model imports. -/
  alwaysImported : List Import
  imports : Imports → String
  query : QueryCall → String

/-- A comment on a line of its own. -/
def lineComment (text : String) : String :=
  "// " ++ text

/-- Texts divided by commas. -/
def commaList (texts : List String) : String :=
  ", ".intercalate texts

end SchemaSnippets.Target
