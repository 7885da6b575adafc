import SchemaSnippets.Model.Imports
import SchemaSnippets.Model.Declaration

/-!
# Type syntax

How a language writes the type of a member, and what it has to import for it. A primitive that the
language has no type for, and a type that could not be found out, are written as the most general type
with a comment.
-/

namespace SchemaSnippets.Target
open Model Schema

/-- A symbol and the module that it comes from. -/
abbrev Import := String × String

structure TypeSyntax where
  /-- The language's type for a primitive kind. -/
  primitive : Primitive → Option String
  optional : String → String
  array : String → String
  stream : String → String
  /-- A reference back to a declaration that contains it. -/
  recursive : String → String
  /-- The most general type. -/
  untyped : String
  /-- What the type of a primitive kind needs, as modules with symbols. -/
  primitiveNeeds : Primitive → List Import
  /-- What the type of a stream needs. -/
  streamNeeds : List Import

/-- A comment that can stand inside a type. -/
def inlineComment (text : String) : String :=
  "/* " ++ text ++ " */"

/-- What is noted where a primitive has no type. -/
def unsupportedNote (kind : Primitive) : String :=
  s!"unsupported primitive {kind.name}"

namespace TypeSyntax

/-- The most general type with a note. -/
def noted (s : TypeSyntax) (note : String) : String :=
  s.untyped ++ " " ++ inlineComment note

/-- The text of a type. -/
def render (s : TypeSyntax) : MemberType → String
  | .primitive k =>
    match s.primitive k with
    | some name => name
    | none => s.noted (unsupportedNote k)
  | .optional t => s.optional (s.render t)
  | .array t => s.array (s.render t)
  | .stream t => s.stream (s.render t)
  | .recursive t => s.recursive (s.render t)
  | .named name => name
  | .untyped none => s.untyped
  | .untyped (some note) => s.noted note

/-- What the text of a type needs. -/
def needs (s : TypeSyntax) : MemberType → List Import
  | .primitive k => if (s.primitive k).isSome then s.primitiveNeeds k else []
  | .optional t => s.needs t
  | .array t => s.needs t
  | .stream t => s.streamNeeds ++ s.needs t
  | .recursive t => s.needs t
  | .named _ => []
  | .untyped _ => []

/-- The scalar primitive kinds that the language has a type for. -/
def mapped (s : TypeSyntax) : List Primitive :=
  Primitive.scalars.filter fun k => (s.primitive k).isSome

end TypeSyntax

end SchemaSnippets.Target
