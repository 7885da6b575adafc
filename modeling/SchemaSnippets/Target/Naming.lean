import SchemaSnippets.Text.Case

/-!
# Naming conventions

How a language spells the names of a schema. Declarations are identifiers in the language's case of
types; what is no identifier gets `_` in front and for every foreign character, and a reserved word
gets `_` behind. Members are in the language's case of members and escaped in the language's way.
-/

namespace SchemaSnippets.Target

structure NameRules where
  caseOfDeclarations : String → String
  caseOfMembers : String → String
  reserved : List String
  /-- Whether a reserved word may name a member as it is. -/
  membersMayBeReserved : Bool
  escape : String → String

/-- A character that an identifier begins with. -/
def startsIdentifier (c : Char) : Bool :=
  c.isAlpha || c == '_'

/-- A character of an identifier. -/
def inIdentifier (c : Char) : Bool :=
  c.isAlphanum || c == '_'

/-- Whether the characters are an identifier in ASCII. -/
def isIdentifierChars : List Char → Bool
  | [] => false
  | c :: cs => startsIdentifier c && cs.all inIdentifier

/-- Whether the name is an identifier in ASCII. -/
def isIdentifier (name : String) : Bool :=
  isIdentifierChars name.toList

/-- An identifier made from any name: `_` in front and for every foreign character. -/
def sanitize (name : String) : String :=
  String.ofList ('_' :: name.toList.map fun c => if inIdentifier c then c else '_')

namespace NameRules
variable (c : NameRules)

def isReserved (name : String) : Bool :=
  c.reserved.contains name

/-- The name made fit for a declaration. -/
def legalize (name : String) : String :=
  let name := if isIdentifier name then name else sanitize name
  if c.isReserved name then name ++ "_" else name

/-- The declaration name of a type's short name. -/
def declarationName (name : String) : String :=
  c.legalize (c.caseOfDeclarations name)

/-- The member name of an attribute. -/
def memberName (name : String) : String :=
  let name := c.caseOfMembers name
  if (!c.membersMayBeReserved && c.isReserved name) || !isIdentifier name then c.escape name
  else name

end NameRules

end SchemaSnippets.Target
