import SchemaSnippets.Json.Token
import SchemaSnippets.Toml.Scalar
import SchemaSnippets.Toml.Table

/-!
# Reading TOML

A document is a sequence of statements, one to a line, with comments and empty lines between them.
Readers take characters and give what they read with the rest, or nothing where the form is broken.
Each step of a loop takes a character, so the number of characters bounds the loops. Brackets and braces
are nested, and dotted keys are long, up to `maxDepth`.
-/

namespace SchemaSnippets.Toml
open Json (hexValue?)

/-- A reader of characters. -/
abbrev Reader (α : Type) := List Char → Option (α × List Char)

/-- How deep arrays and tables written as values are nested, and how many parts a key has, at most. -/
def maxDepth : Nat := 80

/-! ## Blanks and comments -/

def isBlank (c : Char) : Bool :=
  c == ' ' || c == '\t'

/-- A character that texts and comments may hold as it is. -/
def isPrintable (c : Char) : Bool :=
  c == '\t' || (0x20 ≤ c.toNat && c.toNat != 0x7F)

def skipBlanks (cs : List Char) : List Char :=
  cs.dropWhile isBlank

/-- The rest behind a line end. -/
def lineEnd? : List Char → Option (List Char)
  | '\n' :: cs => some cs
  | '\r' :: '\n' :: cs => some cs
  | _ => none

/-- The rest behind a comment, if one begins here. -/
def skipComment : List Char → List Char
  | '#' :: cs => cs.dropWhile isPrintable
  | cs => cs

/-- The rest behind blanks, a comment and the end of the line or of the text. -/
def endOfLine? (cs : List Char) : Option (List Char) :=
  match skipComment (skipBlanks cs) with
  | [] => some []
  | cs => lineEnd? cs

/-- The rest behind blanks, comments and line ends. -/
def skipLines : Nat → List Char → List Char
  | 0, cs => cs
  | fuel + 1, cs =>
    let cs := skipComment (skipBlanks cs)
    match lineEnd? cs with
    | some rest => skipLines fuel rest
    | none => cs

/-! ## Texts -/

/-- The character that `n` hexadecimal digits stand for. -/
def codePoint? (n : Nat) (cs : List Char) : Option (Char × List Char) := do
  let ds ← (cs.take n).mapM hexValue?
  let v := ds.foldl (fun v d => v * 16 + d) 0
  if ds.length = n ∧ v.isValidChar then some (Char.ofNat v, cs.drop n) else none

/-- An escape behind its backslash. -/
def escape? : Reader Char
  | 'b' :: cs => some ('\x08', cs)
  | 'e' :: cs => some ('\x1b', cs)
  | 't' :: cs => some ('\t', cs)
  | 'n' :: cs => some ('\n', cs)
  | 'f' :: cs => some ('\x0c', cs)
  | 'r' :: cs => some ('\r', cs)
  | '"' :: cs => some ('"', cs)
  | '\\' :: cs => some ('\\', cs)
  | 'x' :: cs => codePoint? 2 cs
  | 'u' :: cs => codePoint? 4 cs
  | 'U' :: cs => codePoint? 8 cs
  | _ => none

/-- The rest of a text in double quotes. -/
def basicText? : Nat → Reader (List Char)
  | 0, _ => none
  | fuel + 1, cs =>
    match cs with
    | '"' :: cs => some ([], cs)
    | '\\' :: cs => do
      let (c, cs) ← escape? cs
      let (text, cs) ← basicText? fuel cs
      return (c :: text, cs)
    | c :: cs =>
      if isPrintable c then (basicText? fuel cs).map fun (text, cs) => (c :: text, cs) else none
    | [] => none

/-- The rest of a text in single quotes. -/
def literalText? (cs : List Char) : Option (List Char × List Char) :=
  match cs.span fun c => c != '\'' && isPrintable c with
  | (text, '\'' :: rest) => some (text, rest)
  | _ => none

/-- Three quotes end a text of several lines; up to two more before them belong to the text. -/
def closing? (quote : Char) (cs : List Char) : Option (List Char × List Char) :=
  let n := min 5 (cs.takeWhile (· == quote)).length
  if n < 3 then none else some (List.replicate (n - 3) quote, cs.drop n)

/-- The rest behind a backslash that ends a line: blanks and line ends are skipped. -/
def continuation? (fuel : Nat) (cs : List Char) : Option (List Char) :=
  (lineEnd? (skipBlanks cs)).map fun cs => go fuel cs
where
  go : Nat → List Char → List Char
    | 0, cs => cs
    | fuel + 1, cs =>
      let cs := skipBlanks cs
      match lineEnd? cs with
      | some rest => go fuel rest
      | none => cs

/-- The rest of a text of several lines in triple quotes; `escapes` tells whether a backslash begins
an escape. Line ends belong to the text as they are. -/
def longText? (quote : Char) (escapes : Bool) : Nat → Reader (List Char)
  | 0, _ => none
  | fuel + 1, cs =>
    match closing? quote cs with
    | some r => some r
    | none =>
      match cs with
      | '\r' :: '\n' :: cs =>
        (longText? quote escapes fuel cs).map fun (text, cs) => ('\r' :: '\n' :: text, cs)
      | c :: cs =>
        if c = '\\' ∧ escapes then
          match continuation? fuel cs with
          | some cs => longText? quote escapes fuel cs
          | none => do
            let (c, cs) ← escape? cs
            let (text, cs) ← longText? quote escapes fuel cs
            return (c :: text, cs)
        else if c = '\n' ∨ isPrintable c then
          (longText? quote escapes fuel cs).map fun (text, cs) => (c :: text, cs)
        else none
      | [] => none

/-- A text of several lines behind its opening quotes; a line end right there is not part of it. -/
def openedLongText? (quote : Char) (escapes : Bool) (cs : List Char) :
    Option (List Char × List Char) :=
  let cs := (lineEnd? cs).getD cs
  longText? quote escapes (cs.length + 1) cs

/-- A text of one of the four forms. -/
def text? : Reader String
  | '"' :: '"' :: '"' :: cs => (openedLongText? '"' true cs).map fun (t, cs) => (String.ofList t, cs)
  | '\'' :: '\'' :: '\'' :: cs =>
    (openedLongText? '\'' false cs).map fun (t, cs) => (String.ofList t, cs)
  | '"' :: cs => (basicText? (cs.length + 1) cs).map fun (t, cs) => (String.ofList t, cs)
  | '\'' :: cs => (literalText? cs).map fun (t, cs) => (String.ofList t, cs)
  | _ => none

/-! ## Keys -/

def isBareKeyChar (c : Char) : Bool :=
  c.isAlphanum || c == '_' || c == '-'

/-- One part of a key: bare, or a text on one line. -/
def keyPart? : Reader String
  | '"' :: cs => (basicText? (cs.length + 1) cs).map fun (t, cs) => (String.ofList t, cs)
  | '\'' :: cs => (literalText? cs).map fun (t, cs) => (String.ofList t, cs)
  | cs =>
    match cs.span isBareKeyChar with
    | ([], _) => none
    | (key, rest) => some (String.ofList key, rest)

/-- The parts of a key divided by points, blanks allowed around each. -/
def keyParts? : Nat → Reader (List String)
  | 0, _ => none
  | fuel + 1, cs => do
    let (part, cs) ← keyPart? (skipBlanks cs)
    match skipBlanks cs with
    | '.' :: cs =>
      let (parts, cs) ← keyParts? fuel cs
      return (part :: parts, cs)
    | cs => return ([part], cs)

/-- A key of one or more parts. -/
def key? : Reader (List String) :=
  keyParts? maxDepth

/-! ## Values -/

/-- A character that ends a literal. -/
def endsLiteral (c : Char) : Bool :=
  ['=', ',', '[', ']', '\x7b', '\x7d', '#', '\r', '\n'].contains c

/-- The literal without the blanks behind it. -/
def trimBlanks (cs : List Char) : List Char :=
  (cs.reverse.dropWhile isBlank).reverse

/-- A truth value, a number, a date or a time. -/
def plain? (cs : List Char) : Option (Node × List Char) :=
  let (run, rest) := cs.span fun c => !endsLiteral c
  match trimBlanks run with
  | ['t', 'r', 'u', 'e'] => some (.bool true, rest)
  | ['f', 'a', 'l', 's', 'e'] => some (.bool false, rest)
  | literal => if isPlain literal then some (.plain (String.ofList literal), rest) else none

mutual

/-- A value that holds arrays and tables up to `depth` deep. -/
def value? : Nat → Nat → Reader Node
  | 0, _, _ => none
  | fuel + 1, depth, cs =>
    match cs with
    | '[' :: cs =>
      match depth with
      | 0 => none
      | depth + 1 => (items? fuel depth cs).map fun (items, cs) => (.array items, cs)
    | '\x7b' :: cs =>
      match depth with
      | 0 => none
      | depth + 1 => (pairs? fuel depth [] cs).map fun (es, cs) => (.table .closed es, cs)
    | '"' :: _ => (text? cs).map fun (t, cs) => (.string t, cs)
    | '\'' :: _ => (text? cs).map fun (t, cs) => (.string t, cs)
    | cs => plain? cs

/-- The items of an array, up to its closing bracket. A comma may follow the last item. -/
def items? : Nat → Nat → Reader (List Node)
  | 0, _, _ => none
  | fuel + 1, depth, cs =>
    match skipLines cs.length cs with
    | ']' :: cs => some ([], cs)
    | cs => do
      let (item, cs) ← value? fuel depth cs
      match skipLines cs.length cs with
      | ']' :: cs => return ([item], cs)
      | ',' :: cs =>
        let (items, cs) ← items? fuel depth cs
        return (item :: items, cs)
      | _ => none

/-- The pairs of a table written as a value, up to its closing brace, added to `entries`. A comma may
follow the last pair, and lines may end anywhere but inside a key. -/
def pairs? : Nat → Nat → Entries → Reader Entries
  | 0, _, _, _ => none
  | fuel + 1, depth, entries, cs =>
    match skipLines cs.length cs with
    | '\x7d' :: cs => some (entries, cs)
    | cs => do
      let (keys, cs) ← key? cs
      match skipLines cs.length cs with
      | '=' :: cs =>
        let (value, cs) ← value? fuel depth (skipLines cs.length cs)
        let entries ← insertPair? keys value entries
        match skipLines cs.length cs with
        | '\x7d' :: cs => return (entries, cs)
        | ',' :: cs => pairs? fuel depth entries cs
        | _ => none
      | _ => none

end

/-! ## Documents -/

/-- A header behind its opening brackets, up to `close`. -/
def header? (close : List Char) (cs : List Char) : Option (List String × List Char) := do
  let (keys, cs) ← key? cs
  if close.isPrefixOf cs then some (keys, cs.drop close.length) else none

/-- A statement and the rest of its line. -/
def statement? : Reader Statement
  | '[' :: '[' :: cs => (header? [']', ']'] cs).map fun (keys, cs) => (.arrayItem keys, cs)
  | '[' :: cs => (header? [']'] cs).map fun (keys, cs) => (.table keys, cs)
  | cs => do
    let (keys, cs) ← key? cs
    match cs with
    | '=' :: cs =>
      let (value, cs) ← value? (2 * cs.length + 2) maxDepth (skipBlanks cs)
      return (.pair keys value, cs)
    | _ => none

/-- The statements of a document. -/
def statements? : Nat → List Char → Option (List Statement)
  | 0, _ => none
  | fuel + 1, cs =>
    match skipLines cs.length cs with
    | [] => some []
    | cs => do
      let (s, cs) ← statement? cs
      let cs ← endOfLine? cs
      let ss ← statements? fuel cs
      return s :: ss

/-- The entries of a document. A byte order mark at its beginning is skipped. -/
def ofText? (s : String) : Option Entries :=
  let cs :=
    match s.toList with
    | '\ufeff' :: cs => cs
    | cs => cs
  (statements? (cs.length + 1) cs).bind ofStatements?

end SchemaSnippets.Toml
