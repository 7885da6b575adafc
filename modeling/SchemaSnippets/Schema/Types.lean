import SchemaSnippets.Json.Value
import SchemaSnippets.Schema.Primitive

/-!
# Schema types

What a schema declares: types with their kinds, annotations, formats and sources, and the services
around them. The kind of a type is one of six, decided once when a request is loaded.
-/

namespace SchemaSnippets.Schema

/-- Declared patterns of dates and times, with an offset from UTC in minutes. -/
structure ValueFormat where
  patterns : List String
  offset : Option Int
deriving DecidableEq, Repr

/-- An annotation such as `@Id`, with its parameters in written order. -/
structure Metadata where
  name : QualifiedName
  params : List (String × Json.Value)

/-- Where a type was declared. -/
structure Source where
  name : String
  version : Option String
deriving DecidableEq, Repr

/-- An attribute of a record. Its format overrides the one of its type. -/
structure Attribute where
  name : String
  type : QualifiedName
  nullable : Bool
  metadata : List Metadata
  format : Option ValueFormat
  doc : Option String

/-- A member of an enumeration with the literal it stands for in data. -/
structure EnumValue where
  name : String
  value : Json.Value
  synonyms : List String
  doc : Option String

/-- What a type is. A scalar's primitive is found by following its parents. -/
inductive TypeKind where
  | primitive (kind : Primitive)
  | scalar (parents : List QualifiedName)
  | enumeration (values : List EnumValue)
  | record (attributes : List Attribute)
  | collection (element : QualifiedName)
  | stream (element : QualifiedName)

structure SchemaType where
  name : QualifiedName
  kind : TypeKind
  format : Option ValueFormat
  metadata : List Metadata
  sources : List Source
  doc : Option String

structure Parameter where
  name : Option String
  type : QualifiedName

structure Operation where
  name : String
  parameters : List Parameter
  returns : QualifiedName

/-- A declared service. It is listed and counted, and no snippet depends on it. -/
structure Service where
  name : QualifiedName
  operations : List Operation
  doc : Option String

/-- Whether the annotation has the given short name, in any scope. -/
def Metadata.isNamed (a : Metadata) (short : String) : Bool :=
  a.name.short == short

/-- Whether the attribute carries an annotation with the given short name. -/
def Attribute.hasMetadata (a : Attribute) (short : String) : Bool :=
  a.metadata.any (·.isNamed short)

namespace TypeKind

/-- The attributes of a record; other kinds have none. -/
def attributes : TypeKind → List Attribute
  | .record as => as
  | _ => []

/-- The parents of a scalar; other kinds have none. -/
def parents : TypeKind → List QualifiedName
  | .scalar ps => ps
  | _ => []

/-- The element of a collection or stream. -/
def element? : TypeKind → Option QualifiedName
  | .collection e => some e
  | .stream e => some e
  | _ => none

def isRecord : TypeKind → Bool
  | .record _ => true
  | _ => false

def isScalar : TypeKind → Bool
  | .scalar _ => true
  | _ => false

end TypeKind

namespace SchemaType

/-- A type of which only name and kind are known. -/
def ofKind (name : QualifiedName) (kind : TypeKind) : SchemaType :=
  ⟨name, kind, none, [], [], none⟩

/-- The spelling that tells the type apart. -/
def key (t : SchemaType) : String :=
  t.name.key

/-- The name of the source of types made for one query. -/
def anonymousSource : String := "UnknownSource"

/-- How the names of types made for one query begin. -/
def anonymousStarts : List String :=
  ["AnonymousProjectedType", "AnonymousType"]

/-- Whether the type was made for a single query's projection. -/
def isAnonymous (t : SchemaType) : Bool :=
  t.sources.any (·.name == anonymousSource) ||
    (t.sources.isEmpty &&
      anonymousStarts.any fun start => start.toList.isPrefixOf t.name.short.toList)

end SchemaType

end SchemaSnippets.Schema
