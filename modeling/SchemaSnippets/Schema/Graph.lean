import SchemaSnippets.Schema.Types

/-!
# Type graphs

The types that a query's result is made of, in the order of their definition, each under its own key.

* `TypeGraph.ofTypes`: of several definitions of a key the first counts, and built-in types that are
  mentioned without being defined are added behind. Building never fails.
* `TypeGraph.resolve`: a name means the type with its key, else the first type with its full name.
-/

namespace SchemaSnippets.Schema

/-- A defect of a schema. -/
inductive SchemaError where
  | unknownType (name : String)
  | cyclicInheritance (name : String) (chain : List String)
deriving DecidableEq, Repr

namespace SchemaError

/-- The type that the error is about. -/
def subject : SchemaError → String
  | .unknownType n => n
  | .cyclicInheritance n _ => n

def message : SchemaError → String
  | .unknownType n => s!"unknown type '{n}'"
  | .cyclicInheritance n chain => s!"cyclic inheritance on '{n}': " ++ " -> ".intercalate chain

end SchemaError

structure TypeGraph where
  types : List SchemaType
  services : List Service
  /-- No two types share a key. -/
  keys_nodup : (types.map (·.key)).Nodup

/-- The type of a built-in name: a wrapper around one parameter, or a scalar kind without any. -/
def QualifiedName.builtinKind? (n : QualifiedName) : Option TypeKind :=
  match Primitive.ofFull? n.full, n.parameters with
  | some .array, [e] => some (.collection e)
  | some .stream, [e] => some (.stream e)
  | some k, [] => if k.isStructural then none else some (.primitive k)
  | _, _ => none

/-- The names that a type mentions: its own, its parents', its attributes' and its element's, with
the parameters inside them. -/
def SchemaType.mentioned (t : SchemaType) : List QualifiedName :=
  t.name.mentioned ++ t.kind.parents.flatMap (·.mentioned)
    ++ t.kind.attributes.flatMap (·.type.mentioned) ++ t.kind.element?.toList.flatMap (·.mentioned)

namespace TypeGraph

/-- The type stored under a key. -/
def find? (g : TypeGraph) (key : String) : Option SchemaType :=
  g.types.find? (·.key == key)

/-- The first type with a full name. -/
def findFull? (g : TypeGraph) (full : String) : Option SchemaType :=
  g.types.find? (·.name.full == full)

theorem keys_nodup_append {g : TypeGraph} {t : SchemaType} (h : g.find? t.key = none) :
    ((g.types ++ [t]).map (·.key)).Nodup := by
  have hfree : ∀ u ∈ g.types, u.key ≠ t.key := by simpa [find?] using h
  rw [List.map_append, List.nodup_append]
  refine ⟨g.keys_nodup, by simp, fun k hk k' hk' => ?_⟩
  obtain ⟨u, hu, rfl⟩ := List.mem_map.1 hk
  obtain rfl : k' = t.key := by simpa using hk'
  exact hfree u hu

/-- The graph with a further type, unless its key is taken. -/
def insert (g : TypeGraph) (t : SchemaType) : TypeGraph :=
  match h : g.find? t.key with
  | some _ => g
  | none => ⟨g.types ++ [t], g.services, keys_nodup_append h⟩

/-- The graph with the type of a built-in name, unless the name's key is taken. -/
def addBuiltin (g : TypeGraph) (n : QualifiedName) : TypeGraph :=
  match n.builtinKind? with
  | some k => g.insert (SchemaType.ofKind n k)
  | none => g

/-- The names that the types mention, in order. -/
def mentioned (g : TypeGraph) : List QualifiedName :=
  g.types.flatMap (·.mentioned)

/-- The graph with the built-in types that it mentions. -/
def addBuiltins (g : TypeGraph) : TypeGraph :=
  g.mentioned.foldl addBuiltin g

/-- The graph of some definitions. -/
def ofTypes (types : List SchemaType) (services : List Service) : TypeGraph :=
  (types.foldl insert ⟨[], services, List.nodup_nil⟩).addBuiltins

/-- The type that a name means. -/
def resolve (g : TypeGraph) (n : QualifiedName) : Except SchemaError SchemaType :=
  match (g.find? n.key).or (g.findFull? n.full) with
  | some t => .ok t
  | none => .error (.unknownType n.key)

/-- The type that a name means, if there is one. -/
def resolve? (g : TypeGraph) (n : QualifiedName) : Option SchemaType :=
  (g.resolve n).toOption

/-- The attributes of a type, each with the type it resolves to. The first attribute that resolves to
nothing decides the error. -/
def resolvedAttributes (g : TypeGraph) (t : SchemaType) :
    Except SchemaError (List (Attribute × SchemaType)) :=
  t.kind.attributes.mapM fun a => do
    let member ← g.resolve a.type
    return (a, member)

end TypeGraph

end SchemaSnippets.Schema
