import SchemaSnippets.Json.Value
import SchemaSnippets.Schema.Primitive

/-!
# Declarations

What a snippet declares, free of any language. Members keep the names that the schema gives them; a
target language spells them by its own rules and says how they are bound to the schema's names.

In the type of a member a reference back to a declaration that contains the member is marked, and a
type that could not be found out carries a note that says why.
-/

namespace SchemaSnippets.Model
open Json Schema

/-! ## Types of members -/

inductive MemberType where
  | primitive (kind : Primitive)
  | optional (inner : MemberType)
  | array (inner : MemberType)
  | stream (inner : MemberType)
  | recursive (inner : MemberType)
  | named (name : String)
  | untyped (note : Option String)
deriving DecidableEq, Repr, Inhabited

/-- The primitive kinds that a type mentions. -/
def MemberType.primitives : MemberType → List Primitive
  | .primitive k => [k]
  | .optional t => t.primitives
  | .array t => t.primitives
  | .stream t => t.primitives
  | .recursive t => t.primitives
  | .named _ => []
  | .untyped _ => []

/-! ## Members and declarations -/

/-- A member of a record. A nullable member has an optional type. -/
structure RecordMember where
  name : String
  type : MemberType
  docs : List String
deriving DecidableEq, Repr

/-- A record, its name unique within the snippet. -/
structure RecordDeclaration where
  name : String
  docs : List String
  fields : List RecordMember
deriving DecidableEq, Repr

/-- A member of an enumeration with the literal it stands for in data. -/
structure EnumMember where
  name : String
  value : Value
  docs : List String

/-- An enumeration, its name unique within the snippet. -/
structure EnumDeclaration where
  name : String
  docs : List String
  members : List EnumMember

end SchemaSnippets.Model
