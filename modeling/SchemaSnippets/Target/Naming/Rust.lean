import SchemaSnippets.Data.Entries
import SchemaSnippets.Target.Naming

/-!
# Names of Rust

Members are in snake case and members of enumerations in Pascal case. A keyword becomes a raw
identifier, which begins with `r#`, where the language allows that. Names that are the same after
conversion are told apart by numbers.
-/

namespace SchemaSnippets.Target.Rust
open Data Text Unicode

/-- The keywords of the language, and the types that the generated code refers to. -/
def reserved : List String :=
  ["as", "async", "await", "break", "const", "continue", "crate", "dyn", "else", "enum",
    "extern", "false", "fn", "for", "if", "impl", "in", "let", "loop", "match", "mod", "move",
    "mut", "pub", "ref", "return", "self", "Self", "static", "struct", "super", "trait",
    "true", "type", "unsafe", "use", "where", "while", "abstract", "become", "box", "do",
    "final", "macro", "override", "priv", "try", "typeof", "unsized", "virtual", "yield",
    "Option", "Vec", "Box", "String", "DateTime", "Utc", "NaiveDate", "NaiveTime",
    "NaiveDateTime", "Decimal", "Value", "Serialize", "Deserialize"]

/-- The keywords that cannot be raw identifiers. -/
def neverRaw : List String :=
  ["self", "Self", "super", "crate"]

def escape (name : String) : String :=
  if neverRaw.contains name then name ++ "_"
  else if isIdentifier name then "r#" ++ name
  else sanitize name

def naming : NameRules where
  caseOfDeclarations := pascal
  caseOfMembers := snake
  reserved := reserved
  membersMayBeReserved := false
  escape := escape

/-- The identifier without the mark of a raw one. -/
def withoutMark (name : String) : String :=
  match name.toList with
  | 'r' :: '#' :: cs => String.ofList cs
  | _ => name

/-- The name of an enumeration's member. Names in capitals, and names of several segments, lose their
capitals first: `SCI_FI` and `sci-fi` both become `SciFi`. -/
def constantName (name : String) : String :=
  let cs := name.toList
  let capitals := cs.any Char.isUpper && !cs.any Char.isLower
  naming.declarationName (pascal (if capitals || cs.any isSeparator then lowercase name else name))

/-- Names in order, each that is taken with the first free number behind `separator`. -/
def tellApartFrom (taken : List String) (separator : String) : List String → List String
  | [] => []
  | name :: names =>
    let name := freshName taken name fun i => withoutMark name ++ separator ++ toString i
    name :: tellApartFrom (name :: taken) separator names

/-- The names made distinct. -/
def tellApart (names : List String) (separator : String) : List String :=
  tellApartFrom [] separator names

end SchemaSnippets.Target.Rust
