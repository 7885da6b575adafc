import SchemaSnippets.Json.Slots
import SchemaSnippets.Schema.NameParser
import SchemaSnippets.Schema.Types

/-!
# Request documents

A request as its document writes it: the query, the type it returns, the catalog of types and
services, and types made for this query. Every structure lists its keys in the order in which an array
may hold its values. Most keys may be left out, and an absent key then counts as `null` does.
-/

namespace SchemaSnippets.Request
open Json Schema

/-! ## Structures -/

structure MetadataEntry where
  name : QualifiedName
  params : List (String × Value)

structure SourceEntry where
  name : String
  version : Option String

structure AttributeEntry where
  type : QualifiedName
  nullable : Bool
  metadata : List MetadataEntry
  format : Option (List String)
  offset : Option Int
  typeDoc : Option String

structure EnumValueEntry where
  name : String
  value : Option Value
  synonyms : List String
  typeDoc : Option String

structure TypeEntry where
  name : QualifiedName
  attributes : List (String × AttributeEntry)
  inheritsFrom : List QualifiedName
  aliasForType : Option QualifiedName
  basePrimitiveTypeName : Option QualifiedName
  isPrimitive : Bool
  isScalar : Bool
  isCollection : Bool
  isStream : Bool
  collectionType : Option TypeEntry
  typeParameters : List QualifiedName
  enumValues : List EnumValueEntry
  modifiers : List String
  format : Option (List String)
  offset : Option Int
  metadata : List MetadataEntry
  sources : List SourceEntry
  typeDoc : Option String

structure ParameterEntry where
  name : Option String
  typeName : QualifiedName

structure OperationEntry where
  name : String
  parameters : List ParameterEntry
  returnTypeName : QualifiedName

structure ServiceEntry where
  name : QualifiedName
  operations : List OperationEntry
  typeDoc : Option String

structure SchemaEntry where
  types : List TypeEntry
  services : List ServiceEntry

structure RequestEntry where
  query : String
  returnType : TypeEntry
  schema : SchemaEntry
  anonymousTypes : List TypeEntry

/-! ## Names -/

/-- A name written as a text, or as a structure that may override what its full name says. Without
parameters of its own the structure takes them from `parameterizedName`, if that has any, and else
from the full name. -/
def readName? : Nat → Document → Option QualifiedName
  | _, .string s => s.bind QualifiedName.parse?
  | 0, _ => none
  | fuel + 1, d => do
    let keys := ["fullyQualifiedName", "name", "namespace", "parameters", "parameterizedName"]
    match ← d.slots? keys (fuel + 1) with
    | (depth, [full, short, scope, parameters, parameterized]) =>
      let full ← full.required Document.text?
      let short ← short.optional Document.text?
      let scope ← scope.optional Document.text?
      let parameters ← parameters.ifPresent [] (Document.list? (fun _ => readName? fuel) depth)
      let parameterized ← parameterized.optional Document.text?
      match parameters, parameterized.filter (·.toList.contains '<') with
      | [], some p => QualifiedName.parse? p
      | _, _ =>
        let base ← QualifiedName.parse? full
        let ps := if parameters.isEmpty then base.parameters else parameters
        return (base.withParameters ps).withParts scope short
    | _ => none

/-- The name that a document spells. All of the document has to be readable. -/
def name? (depth : Nat) (d : Document) : Option QualifiedName :=
  if d.isReadable depth then readName? depth d else none

/-! ## Reading -/

/-- The patterns of a format: a text, or a list of texts. -/
def patterns? (depth : Nat) (d : Document) : Option (List String) :=
  match d with
  | .string s => s.map ([·])
  | d => if d.isReadable depth then Document.list? (fun _ => Document.text?) depth d else none

/-- Texts in an array. -/
def texts? (depth : Nat) (d : Document) : Option (List String) :=
  Document.list? (fun _ => Document.text?) depth d

def MetadataEntry.read? (depth : Nat) (d : Document) : Option MetadataEntry := do
  match ← d.slots? ["name", "params"] depth with
  | (depth, [name, params]) =>
    return {
      name := ← name.required (name? depth)
      params := ← params.orDefault [] (Document.entries? Document.value? depth) }
  | _ => none

def SourceEntry.read? (depth : Nat) (d : Document) : Option SourceEntry := do
  match ← d.slots? ["name", "version"] depth with
  | (_, [name, version]) =>
    return {
      name := ← name.required Document.text?
      version := ← version.optional Document.text? }
  | _ => none

def AttributeEntry.read? (depth : Nat) (d : Document) : Option AttributeEntry := do
  let keys := ["type", "nullable", "metadata", "format", "offset", "typeDoc"]
  match ← d.slots? keys depth with
  | (depth, [type, nullable, metadata, format, offset, typeDoc]) =>
    return {
      type := ← type.required (name? depth)
      nullable := ← nullable.orDefault false Document.bool?
      metadata := ← metadata.orDefault [] (Document.list? MetadataEntry.read? depth)
      format := ← format.optional (patterns? depth)
      offset := ← offset.optional Document.int32?
      typeDoc := ← typeDoc.optional Document.text? }
  | _ => none

def EnumValueEntry.read? (depth : Nat) (d : Document) : Option EnumValueEntry := do
  match ← d.slots? ["name", "value", "synonyms", "typeDoc"] depth with
  | (depth, [name, value, synonyms, typeDoc]) =>
    return {
      name := ← name.required Document.text?
      value := ← value.optional (Document.value? depth)
      synonyms := ← synonyms.orDefault [] (texts? depth)
      typeDoc := ← typeDoc.optional Document.text? }
  | _ => none

/-- The keys of a type. -/
def TypeEntry.keys : List String :=
  ["name", "attributes", "inheritsFrom", "aliasForType", "basePrimitiveTypeName", "isPrimitive",
    "isScalar", "isCollection", "isStream", "collectionType", "typeParameters", "enumValues",
    "modifiers", "format", "offset", "metadata", "sources", "typeDoc"]

/-- A type, together with the type of its elements written inside it. -/
def TypeEntry.read? : Nat → Document → Option TypeEntry
  | 0, _ => none
  | depth + 1, d => do
    match ← d.slots? TypeEntry.keys (depth + 1) with
    | (_, [name, attributes, inheritsFrom, aliasForType, basePrimitiveTypeName, isPrimitive,
        isScalar, isCollection, isStream, collectionType, typeParameters, enumValues, modifiers,
        format, offset, metadata, sources, typeDoc]) =>
      return {
        name := ← name.required (name? depth)
        attributes := ← attributes.orDefault [] (Document.entries? AttributeEntry.read? depth)
        inheritsFrom := ← inheritsFrom.orDefault [] (Document.list? name? depth)
        aliasForType := ← aliasForType.optional (name? depth)
        basePrimitiveTypeName := ← basePrimitiveTypeName.optional (name? depth)
        isPrimitive := ← isPrimitive.orDefault false Document.bool?
        isScalar := ← isScalar.orDefault false Document.bool?
        isCollection := ← isCollection.orDefault false Document.bool?
        isStream := ← isStream.orDefault false Document.bool?
        collectionType := ← collectionType.optional (TypeEntry.read? depth)
        typeParameters := ← typeParameters.orDefault [] (Document.list? name? depth)
        enumValues := ← enumValues.orDefault [] (Document.list? EnumValueEntry.read? depth)
        modifiers := ← modifiers.orDefault [] (texts? depth)
        format := ← format.optional (patterns? depth)
        offset := ← offset.optional Document.int32?
        metadata := ← metadata.orDefault [] (Document.list? MetadataEntry.read? depth)
        sources := ← sources.orDefault [] (Document.list? SourceEntry.read? depth)
        typeDoc := ← typeDoc.optional Document.text? }
    | _ => none

def ParameterEntry.read? (depth : Nat) (d : Document) : Option ParameterEntry := do
  match ← d.slots? ["name", "typeName"] depth with
  | (depth, [name, typeName]) =>
    return {
      name := ← name.optional Document.text?
      typeName := ← typeName.required (name? depth) }
  | _ => none

def OperationEntry.read? (depth : Nat) (d : Document) : Option OperationEntry := do
  match ← d.slots? ["name", "parameters", "returnTypeName"] depth with
  | (depth, [name, parameters, returnTypeName]) =>
    return {
      name := ← name.required Document.text?
      parameters := ← parameters.orDefault [] (Document.list? ParameterEntry.read? depth)
      returnTypeName := ← returnTypeName.required (name? depth) }
  | _ => none

def ServiceEntry.read? (depth : Nat) (d : Document) : Option ServiceEntry := do
  match ← d.slots? ["name", "operations", "typeDoc"] depth with
  | (depth, [name, operations, typeDoc]) =>
    return {
      name := ← name.required (name? depth)
      operations := ← operations.orDefault [] (Document.list? OperationEntry.read? depth)
      typeDoc := ← typeDoc.optional Document.text? }
  | _ => none

def SchemaEntry.read? (depth : Nat) (d : Document) : Option SchemaEntry := do
  match ← d.slots? ["types", "services"] depth with
  | (depth, [types, services]) =>
    return {
      types := ← types.orDefault [] (Document.list? TypeEntry.read? depth)
      services := ← services.orDefault [] (Document.list? ServiceEntry.read? depth) }
  | _ => none

def RequestEntry.read? (depth : Nat) (d : Document) : Option RequestEntry := do
  match ← d.slots? ["query", "returnType", "schema", "anonymousTypes"] depth with
  | (depth, [query, returnType, schema, anonymousTypes]) =>
    return {
      query := ← query.required Document.text?
      returnType := ← returnType.required (TypeEntry.read? depth)
      schema := ← schema.orDefault ⟨[], []⟩ (SchemaEntry.read? depth)
      anonymousTypes := ← anonymousTypes.orDefault [] (Document.list? TypeEntry.read? depth) }
  | _ => none

end SchemaSnippets.Request
