import SchemaSnippets.Json.Document

/-!
# Structures in JSON

A structure has a fixed list of keys. It is written as an object, whose other keys are skipped unread,
or as an array of the values of its keys in order, the last ones left off at will. `Document.slots?`
gives what is written for each key.

A slot that may be empty is read by one of three rules: `required`, `optional` (absent and `null` are
the same) and `orDefault` (absent and `null` give the default); `ifPresent` gives the default only to
an absent key.
-/

namespace SchemaSnippets.Json

/-- What a structure holds for one of its keys. -/
abbrev Slot := Option Document

namespace Document

/-- What stands for `key` among members whose keys are all texts. -/
def lookup (key : String) (members : List (Option String × Document)) : Slot :=
  (members.find? (·.1 == some key)).map (·.2)

/-- Whether `key` stands at most once among the members. -/
def isSingle (members : List (Option String × Document)) (key : String) : Bool :=
  (members.filter (·.1 == some key)).length ≤ 1

/-- The slots of a structure with the given keys, and the depth left for what they hold. -/
def slots? (keys : List String) : Nat → Document → Option (Nat × List Slot)
  | depth + 1, .object members =>
    if members.all (·.1.isSome) && keys.all (isSingle members) then
      some (depth, keys.map (lookup · members))
    else none
  | depth + 1, .array items =>
    if items.length ≤ keys.length then
      some (depth, items.map some ++ List.replicate (keys.length - items.length) none)
    else none
  | _, _ => none

end Document

namespace Slot
variable {α : Type}

/-- A slot that must be filled. -/
def required (f : Document → Option α) : Slot → Option α
  | none => none
  | some d => f d

/-- A slot that may be absent or `null`. -/
def optional (f : Document → Option α) : Slot → Option (Option α)
  | none => some none
  | some .null => some none
  | some d => (f d).map some

/-- A slot that has a default when it is absent or `null`. -/
def orDefault (default : α) (f : Document → Option α) : Slot → Option α
  | none => some default
  | some .null => some default
  | some d => f d

/-- A slot that has a default when it is absent. -/
def ifPresent (default : α) (f : Document → Option α) : Slot → Option α
  | none => some default
  | some d => f d

end Slot

end SchemaSnippets.Json
