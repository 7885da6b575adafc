import SchemaSnippets.Schema.Graph

/-!
# Inheritance

A scalar inherits from its first parent that resolves. Following parents from a type ends at a type
that is no scalar, at a scalar without a parent to follow, or at a type met before.

* `TypeGraph.primitiveOf`: the primitive kind at the end.
* `TypeGraph.inheritedFormat`: the first format declared on the way.
-/

namespace SchemaSnippets.Schema
namespace TypeGraph

/-- The first parent that resolves. Parents that all fail give the error of the first; no parents
give nothing. -/
def parentOf (g : TypeGraph) (parents : List QualifiedName) : Except SchemaError (Option SchemaType) :=
  match parents.findSome? g.resolve? with
  | some t => .ok (some t)
  | none =>
    match parents with
    | [] => .ok none
    | p :: _ => .error (.unknownType p.key)

/-- The kind of an enumeration: `Int` if it has values and all of them are integers. -/
def enumerationKind (values : List EnumValue) : Primitive :=
  if !values.isEmpty && values.all (·.value.isInteger) then .int else .string

/-- The kind at the end of the way from `t`, after the keys of `chain`. -/
def primitiveFrom (g : TypeGraph) :
    Nat → List String → SchemaType → Except SchemaError Primitive
  | 0, _, _ => .ok .any
  | fuel + 1, chain, t =>
    if t.key ∈ chain then .error (.cyclicInheritance t.key (chain ++ [t.key]))
    else
      match t.kind with
      | .primitive k => .ok k
      | .collection _ => .ok .array
      | .stream _ => .ok .stream
      | .record _ => .ok .any
      | .enumeration values => .ok (enumerationKind values)
      | .scalar parents => do
        match ← g.parentOf parents with
        | some parent => g.primitiveFrom fuel (chain ++ [t.key]) parent
        | none => return .any

/-- More steps than a way without repetition can have. -/
def wayLength (g : TypeGraph) : Nat :=
  g.types.length + 2

/-- The primitive kind that a type ultimately is. -/
def primitiveOf (g : TypeGraph) (t : SchemaType) : Except SchemaError Primitive :=
  g.primitiveFrom g.wayLength [] t

/-- The first format on the way from `t`, the types of `seen` having none. -/
def inheritedFormatFrom (g : TypeGraph) : Nat → List String → SchemaType → Option ValueFormat
  | 0, _, _ => none
  | fuel + 1, seen, t =>
    match t.format with
    | some f => some f
    | none =>
      if t.key ∈ seen then none
      else (t.kind.parents.findSome? g.resolve?).bind (g.inheritedFormatFrom fuel (t.key :: seen))

/-- The first format declared along the inheritance of a type. -/
def inheritedFormat (g : TypeGraph) (t : SchemaType) : Option ValueFormat :=
  g.inheritedFormatFrom g.wayLength [] t

end TypeGraph
end SchemaSnippets.Schema
