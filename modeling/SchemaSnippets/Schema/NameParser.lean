import SchemaSnippets.Schema.QualifiedName
import SchemaSnippets.Text.Lines

/-!
# Reading qualified names

A name is a base, or a base with parameters in angle brackets, white space allowed around each. The
bracket that opens the parameters is the first one and the one that closes them is the last
character; between them commas outside of inner brackets divide the parameters.
-/

namespace SchemaSnippets.Schema
open Text

/-- Why a text is no name. -/
inductive NameFault where
  | strayDelimiter
  | empty
  | unclosed
  | unbalanced
deriving DecidableEq, Repr

/-- The fault in words. -/
def NameFault.reason : NameFault → String
  | .strayDelimiter => "unexpected '>' or ','"
  | .empty => "name is empty"
  | .unclosed => "unclosed '<'"
  | .unbalanced => "unbalanced '>'"

/-- A text that is no name, as it was given. -/
structure NameError where
  name : String
  fault : NameFault
deriving DecidableEq, Repr

def NameError.message (e : NameError) : String :=
  s!"invalid type name '{e.name}': {e.fault.reason}"

/-- A parameter list cut at its commas: the pieces that a comma ends, then the last piece or the fault
that is met before it ends. -/
structure ParameterText where
  closed : List (List Char)
  last : Except NameFault (List Char)

/-- Cuts a parameter list, `piece` being what was read since the last comma and `depth` the number of
inner brackets still open. -/
def cutParameters (depth : Nat) (piece : List Char) : List Char → ParameterText
  | [] => ⟨[], if depth = 0 then .ok piece else .error .unclosed⟩
  | c :: cs =>
    if c = '<' then cutParameters (depth + 1) (piece ++ [c]) cs
    else if c = '>' then
      match depth with
      | 0 => ⟨[], .error .unbalanced⟩
      | d + 1 => cutParameters d (piece ++ [c]) cs
    else if c = ',' ∧ depth = 0 then
      let t := cutParameters 0 [] cs
      ⟨piece :: t.closed, t.last⟩
    else cutParameters depth (piece ++ [c]) cs

namespace QualifiedName

/-- Reads a name with white space around it. Parameters are shorter than the text that holds them,
so `fuel` above its length is enough. -/
def readChars : Nat → List Char → Except NameFault QualifiedName
  | 0, _ => .error .unclosed
  | fuel + 1, cs => do
    let cs := trimChars cs
    match cs.span (· != '<') with
    | (_, []) =>
      if cs.any fun c => c == '>' || c == ',' then throw .strayDelimiter
      if cs.isEmpty then throw .empty
      return ofFull (String.ofList cs)
    | (base, _ :: tail) =>
      if tail.getLast? ≠ some '>' then throw .unclosed
      let base := trimChars base
      if base.isEmpty then throw .empty
      let text := cutParameters 0 [] tail.dropLast
      let closed ← text.closed.mapM (readChars fuel)
      let last ← text.last
      let last ← readChars fuel last
      return (ofFull (String.ofList base)).withParameters (closed ++ [last])

/-- The name that a text spells. -/
def parse (s : String) : Except NameError QualifiedName :=
  match readChars (s.toList.length + 1) s.toList with
  | .ok n => .ok n
  | .error fault => .error ⟨s, fault⟩

/-- The name that a text spells, if it is one. -/
def parse? (s : String) : Option QualifiedName :=
  match parse s with
  | .ok n => some n
  | .error _ => none

end QualifiedName

end SchemaSnippets.Schema
