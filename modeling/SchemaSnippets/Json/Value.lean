import SchemaSnippets.Data.Entries
import SchemaSnippets.Json.Document

/-!
# JSON values

A value is what a document says: the members of an object are in the order of their keys, and of a
repeated key the last value counts. Every value is written in one way on one line (`Value.text`) and
in one way with indentation (`Value.pretty`).
-/

namespace SchemaSnippets.Json
open Data

/-- A JSON value; `insertEntry` keeps the members of an object sorted by distinct keys. -/
inductive Value where
  | null
  | bool (b : Bool)
  | integer (i : Int)
  | float (x : Number.Binary64)
  | string (text : String)
  | array (items : List Value)
  | object (members : List (String × Value))
deriving Inhabited

/-- The entries of an object, each value read by `f` one level deeper: a repeated key keeps its first
place and takes its last value. -/
def Document.entries? {α : Type} (f : Nat → Document → Option α) :
    Nat → Document → Option (List (String × α))
  | depth + 1, .object members => do
    let entries ← members.mapM fun (k, d) => do
      let k ← k
      let a ← f depth d
      return (k, a)
    return entries.foldl (fun es (k, a) => setEntry k a es) []
  | _, _ => none

/-- The value of a document within `depth` levels of nesting. -/
def Document.value? : Nat → Document → Option Value
  | _, .null => some .null
  | _, .bool b => some (.bool b)
  | _, .number (.integer i) => some (.integer i)
  | _, .number (.float x) => some (.float x)
  | _, .number .outOfRange => none
  | _, .string s => s.map .string
  | 0, .array _ => none
  | depth + 1, .array items => (items.mapM (value? depth)).map .array
  | 0, .object _ => none
  | depth + 1, .object members => do
    let entries ← members.mapM fun m => do
      let k ← m.1
      let v ← value? depth m.2
      return (k, v)
    return .object (entries.foldl (fun es (k, v) => insertEntry k v es) [])

namespace Value

def isNull : Value → Bool
  | .null => true
  | _ => false

/-- The text of a string. -/
def text? : Value → Option String
  | .string s => some s
  | _ => none

/-- The integer, if the value is one of 64 bits with sign. -/
def int64? : Value → Option Int
  | .integer i => if -9223372036854775808 ≤ i ∧ i ≤ 9223372036854775807 then some i else none
  | _ => none

/-- Whether the value is an integer of 64 bits, with or without sign. -/
def isInteger : Value → Bool
  | .integer _ => true
  | _ => false

/-! ## Writing -/

/-- A character inside a string. -/
def escapeChar (c : Char) : List Char :=
  if c = '"' then ['\\', '"']
  else if c = '\\' then ['\\', '\\']
  else if c = '\n' then ['\\', 'n']
  else if c = '\r' then ['\\', 'r']
  else if c = '\t' then ['\\', 't']
  else if c = '\x08' then ['\\', 'b']
  else if c = '\x0c' then ['\\', 'f']
  else if c.toNat < 0x20 then
    ['\\', 'u', '0', '0', Nat.digitChar (c.toNat / 16), Nat.digitChar (c.toNat % 16)]
  else [c]

/-- A text as a JSON string. -/
def quote (s : String) : String :=
  String.ofList ('"' :: s.toList.flatMap escapeChar ++ ['"'])

mutual

/-- The value on one line without blanks. -/
def text : Value → String
  | .null => "null"
  | .bool b => if b then "true" else "false"
  | .integer i => toString i
  | .float x => x.text
  | .string s => quote s
  | .array items => "[" ++ ",".intercalate (texts items) ++ "]"
  | .object members => "\x7b" ++ ",".intercalate (memberTexts members) ++ "\x7d"

def texts : List Value → List String
  | [] => []
  | v :: vs => text v :: texts vs

def memberTexts : List (String × Value) → List String
  | [] => []
  | (k, v) :: ms => (quote k ++ ":" ++ text v) :: memberTexts ms

end

/-- Items on lines of their own between two brackets, at a nesting of `level`. -/
def bracketed (level : Nat) (left right : String) (items : List String) : String :=
  if items.isEmpty then left ++ right
  else
    let indent (n : Nat) := String.ofList (List.replicate (2 * n) ' ')
    left ++ "\n" ++ ",\n".intercalate (items.map (indent (level + 1) ++ ·)) ++ "\n"
      ++ indent level ++ right

mutual

/-- The value over several lines, two spaces for each level. -/
def prettyAt (level : Nat) : Value → String
  | .array items => bracketed level "[" "]" (prettyItems (level + 1) items)
  | .object members => bracketed level "\x7b" "\x7d" (prettyMembers (level + 1) members)
  | .null => "null"
  | .bool b => if b then "true" else "false"
  | .integer i => toString i
  | .float x => x.text
  | .string s => quote s

def prettyItems (level : Nat) : List Value → List String
  | [] => []
  | v :: vs => prettyAt level v :: prettyItems level vs

def prettyMembers (level : Nat) : List (String × Value) → List String
  | [] => []
  | (k, v) :: ms => (quote k ++ ": " ++ prettyAt level v) :: prettyMembers level ms

end

/-- The value over several lines. -/
def pretty (v : Value) : String :=
  prettyAt 0 v

/-- An object with the given members. -/
def ofMembers (members : List (String × Value)) : Value :=
  .object (members.foldl (fun ms (k, v) => insertEntry k v ms) [])

end Value

end SchemaSnippets.Json
