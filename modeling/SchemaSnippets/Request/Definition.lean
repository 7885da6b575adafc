import SchemaSnippets.Request.Entry
import SchemaSnippets.Schema.Graph

/-!
# Definitions of a request

What the entries of a document define. The kind of a type is decided by the first of these that
holds: it has values or is marked as an enumeration; it is a stream; it is a collection; its name is
built in; it has attributes; it is marked as a scalar or has something to inherit from. All else is a
record without attributes.

* `TypeEntry.kind`, `TypeEntry.toType`: the definition of a type.
* `RequestEntry.allTypes`: all types, those of the catalog first, then the returned type and
  the types made for the query, then the element types written inside others.
-/

namespace SchemaSnippets.Request
open Json Schema

/-- A format, unless nothing is said about it. -/
def valueFormat? (patterns : Option (List String)) (offset : Option Int) : Option ValueFormat :=
  let patterns := patterns.getD []
  if patterns.isEmpty && offset.isNone then none else some ⟨patterns, offset⟩

def MetadataEntry.toMetadata (e : MetadataEntry) : Metadata :=
  ⟨e.name, e.params⟩

def AttributeEntry.toAttribute (name : String) (e : AttributeEntry) : Attribute :=
  ⟨name, e.type, e.nullable, e.metadata.map (·.toMetadata), valueFormat? e.format e.offset,
    e.typeDoc⟩

/-- A value that is absent or `null` is the member's own name. -/
def EnumValueEntry.toEnumValue (e : EnumValueEntry) : EnumValue :=
  ⟨e.name, (e.value.filter (!·.isNull)).getD (.string e.name), e.synonyms, e.typeDoc⟩

namespace TypeEntry

/-- The primitive kind that the name stands for. -/
def builtin? (e : TypeEntry) : Option Primitive :=
  Primitive.ofFull? e.name.full

/-- The name of the element type: of the type written inside, else of the first type parameter, else
of the first parameter of the name, else of the type of everything. -/
def element (e : TypeEntry) : QualifiedName :=
  ((e.collectionType.map (·.name)).or (e.typeParameters.head?.or e.name.parameters.head?)).getD
    (QualifiedName.ofFull (Primitive.scope ++ "." ++ Primitive.any.name))

/-- The parents of a scalar: what it is an alias for, what it inherits from, and last the declared
primitive, unless it is among these. -/
def scalarParents (e : TypeEntry) : List QualifiedName :=
  let parents := e.aliasForType.toList ++ e.inheritsFrom
  match e.basePrimitiveTypeName with
  | some base => if base ∈ parents then parents else parents ++ [base]
  | none => parents

def isEnumeration (e : TypeEntry) : Bool :=
  !e.enumValues.isEmpty || e.modifiers.contains "ENUM"

/-- Whether the type is marked as a scalar or names something to inherit from. -/
def inherits (e : TypeEntry) : Bool :=
  e.isScalar || e.isPrimitive || !e.inheritsFrom.isEmpty || e.aliasForType.isSome
    || e.basePrimitiveTypeName.isSome

def kind (e : TypeEntry) : TypeKind :=
  if e.isEnumeration then .enumeration (e.enumValues.map (·.toEnumValue))
  else if e.isStream || e.builtin? = some .stream then .stream e.element
  else if e.isCollection || e.builtin? = some .array then .collection e.element
  else
    match e.builtin? with
    | some k => .primitive k
    | none =>
      if !e.attributes.isEmpty then .record (e.attributes.map fun (name, a) => a.toAttribute name)
      else if e.inherits then .scalar e.scalarParents
      else .record []

def toType (e : TypeEntry) : SchemaType :=
  { name := e.name
    kind := e.kind
    format := valueFormat? e.format e.offset
    metadata := e.metadata.map (·.toMetadata)
    sources := e.sources.map fun s => ⟨s.name, s.version⟩
    doc := e.typeDoc }

/-- The types written inside a type as that of its elements, from the outside to the inside. -/
def inner (e : TypeEntry) : List TypeEntry :=
  match _h : e.collectionType with
  | some c => c :: c.inner
  | none => []
termination_by sizeOf e
decreasing_by
  cases e
  simp_all only [TypeEntry.mk.sizeOf_spec, Option.some.sizeOf_spec]
  omega

end TypeEntry

def ServiceEntry.toService (e : ServiceEntry) : Service :=
  ⟨e.name, e.operations.map fun o =>
    ⟨o.name, o.parameters.map fun p => ⟨p.name, p.typeName⟩, o.returnTypeName⟩, e.typeDoc⟩

namespace RequestEntry

/-- The types that a request gives directly. -/
def outerTypes (e : RequestEntry) : List TypeEntry :=
  e.schema.types ++ [e.returnType] ++ e.anonymousTypes

/-- All types of a request in the order of their precedence. Those inside the last type come first. -/
def allTypes (e : RequestEntry) : List TypeEntry :=
  e.outerTypes ++ e.outerTypes.reverse.flatMap (·.inner)

/-- The type graph that a request defines. -/
def graph (e : RequestEntry) : TypeGraph :=
  TypeGraph.ofTypes (e.allTypes.map (·.toType)) (e.schema.services.map (·.toService))

end RequestEntry

end SchemaSnippets.Request
