import SchemaSnippets.Json.Token

/-!
# JSON documents

A document is the tree of a JSON text, members in their written order and repeated keys kept. What
may be skipped but not read stays in it: a string whose escapes form no text, a number beyond the
range, and nesting of any depth. `Document.isReadable` tells what can be read within a given depth.
-/

namespace SchemaSnippets.Json

/-- A JSON value as it is written. -/
inductive Document where
  | null
  | bool (b : Bool)
  | number (n : Number)
  | string (text : Option String)
  | array (items : List Document)
  | object (members : List (Option String × Document))
deriving Inhabited

namespace Document

/-! ## Reading lexemes -/

mutual

/-- The value at the front and the lexemes after it. -/
def read? : Nat → List Token → Option (Document × List Token)
  | 0, _ => none
  | fuel + 1, t :: ts =>
    match t with
    | .null => some (.null, ts)
    | .bool b => some (.bool b, ts)
    | .number n => some (.number n, ts)
    | .string s => some (.string s, ts)
    | .openBracket =>
      match ts with
      | .closeBracket :: ts => some (.array [], ts)
      | ts => (readItems? fuel ts).map fun (items, rest) => (.array items, rest)
    | .openBrace =>
      match ts with
      | .closeBrace :: ts => some (.object [], ts)
      | ts => (readMembers? fuel ts).map fun (members, rest) => (.object members, rest)
    | _ => none
  | _, [] => none

/-- Values divided by commas, up to the closing bracket. -/
def readItems? : Nat → List Token → Option (List Document × List Token)
  | 0, _ => none
  | fuel + 1, ts => do
    let (item, ts) ← read? fuel ts
    match ts with
    | .closeBracket :: ts => return ([item], ts)
    | .comma :: ts =>
      let (items, ts) ← readItems? fuel ts
      return (item :: items, ts)
    | _ => none

/-- Keys with their values divided by commas, up to the closing brace. -/
def readMembers? : Nat → List Token → Option (List (Option String × Document) × List Token)
  | 0, _ => none
  | fuel + 1, ts => do
    match ts with
    | .string key :: .colon :: ts =>
      let (value, ts) ← read? fuel ts
      match ts with
      | .closeBrace :: ts => return ([(key, value)], ts)
      | .comma :: ts =>
        let (members, ts) ← readMembers? fuel ts
        return ((key, value) :: members, ts)
      | _ => none
    | _ => none

end

/-- The document that tokens spell. Each call takes a token or is followed by one that does, so
twice the number of tokens bounds the nesting of calls. -/
def ofTokens? (ts : List Token) : Option Document :=
  match read? (2 * ts.length + 1) ts with
  | some (d, []) => some d
  | _ => none

/-- The document of a JSON text. -/
def ofText? (s : String) : Option Document :=
  (lexemes? s).bind fun ls => ofTokens? (ls.map (·.token))

/-! ## Depth -/

/-- How many arrays and objects may stand inside each other in what is read. -/
def maxDepth : Nat := 127

/-- Whether the whole value can be read with `depth` more levels of nesting. -/
def isReadable : Nat → Document → Bool
  | _, .null => true
  | _, .bool _ => true
  | _, .number n => n != .outOfRange
  | _, .string s => s.isSome
  | 0, .array _ => false
  | depth + 1, .array items => items.all (isReadable depth)
  | 0, .object _ => false
  | depth + 1, .object members => members.all fun m => m.1.isSome && isReadable depth m.2

/-- The text of a string. -/
def text? : Document → Option String
  | .string s => s
  | _ => none

/-- The truth value. -/
def bool? : Document → Option Bool
  | .bool b => some b
  | _ => none

/-- An integer of 32 bits with sign. -/
def int32? : Document → Option Int
  | .number (.integer i) => if -2147483648 ≤ i ∧ i ≤ 2147483647 then some i else none
  | _ => none

/-- The items of an array, each read by `f` one level deeper. -/
def list? {α : Type} (f : Nat → Document → Option α) : Nat → Document → Option (List α)
  | depth + 1, .array items => items.mapM (f depth)
  | _, _ => none

end Document

end SchemaSnippets.Json
