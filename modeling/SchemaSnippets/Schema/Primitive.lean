import SchemaSnippets.Schema.QualifiedName

/-!
# Primitive kinds

The built-in types that every chain of inheritance ends in. `Array` and `Stream` wrap an element type
and are structural; the other kinds are scalar and a target language may map them to types of its
own. A built-in is recognised by its full name, with or without the built-in scope.
-/

namespace SchemaSnippets.Schema

inductive Primitive where
  | string | int | decimal | double | boolean | date | time | dateTime | instant | any | void
  | array | stream
deriving DecidableEq, Repr

namespace Primitive

/-- The scope of the built-in types. -/
def scope : String := "lang.taxi"

/-- Every kind, in the order of declaration. -/
def all : List Primitive :=
  [.string, .int, .decimal, .double, .boolean, .date, .time, .dateTime, .instant, .any, .void,
    .array, .stream]

/-- The name of a kind inside the built-in scope. -/
def name : Primitive → String
  | .string => "String"
  | .int => "Int"
  | .decimal => "Decimal"
  | .double => "Double"
  | .boolean => "Boolean"
  | .date => "Date"
  | .time => "Time"
  | .dateTime => "DateTime"
  | .instant => "Instant"
  | .any => "Any"
  | .void => "Void"
  | .array => "Array"
  | .stream => "Stream"

/-- Whether the kind wraps an element type. -/
def isStructural : Primitive → Bool
  | .array => true
  | .stream => true
  | _ => false

/-- The kinds that a target language may map. -/
def scalars : List Primitive :=
  all.filter (!·.isStructural)

/-- The kind with the given short name. -/
def ofShort? (short : String) : Option Primitive :=
  all.find? (·.name == short)

/-- The kind that a full name stands for: bare, or directly in the built-in scope. -/
def ofFull? (full : String) : Option Primitive :=
  match QualifiedName.splitLastPoint? full.toList with
  | some (before, after) =>
    if String.ofList before = scope then ofShort? (String.ofList after) else none
  | none => ofShort? full

theorem mem_all (k : Primitive) : k ∈ all := by
  cases k <;> decide

theorem ofShort?_name (k : Primitive) : ofShort? k.name = some k := by
  cases k <;> decide

end Primitive

end SchemaSnippets.Schema
