import SchemaSnippets.Unicode.Property
import SchemaSnippets.Unicode.CaseMap

/-!
# Word case

Names are made of segments divided by `_`, `-`, space and `.`.

* `pascal` joins the segments, the first character of each in upper case; the other characters stay
  as they are, so a name already in this case passes unchanged.
* `camel` is `pascal` with the first character in lower case.
* `snake` joins lower case words by single underscores. A word begins after a separator, at a capital
  after a small letter or a digit, and at the last capital of a run when a small letter follows.
-/

namespace SchemaSnippets.Text
open Unicode

/-- Whether `c` divides the segments of a name. -/
def isSeparator (c : Char) : Bool :=
  c == '_' || c == '-' || c == ' ' || c == '.'

/-- The segments joined; `start` tells that the next character begins a segment. -/
def pascalChars (start : Bool) : List Char → List Char
  | [] => []
  | c :: cs =>
    if isSeparator c then pascalChars true cs
    else (if start then upperOf c else [c]) ++ pascalChars false cs

/-- `hello_world` becomes `HelloWorld`. -/
def pascal (s : String) : String :=
  String.ofList (pascalChars true s.toList)

/-- The characters with the first one in lower case. -/
def lowerFirst : List Char → List Char
  | [] => []
  | c :: cs => lowerOf c ++ cs

/-- `hello_world` becomes `helloWorld`. -/
def camel (s : String) : String :=
  String.ofList (lowerFirst (pascalChars true s.toList))

/-- Whether a capital begins a word, between the characters `prev` and `next` of the name. -/
def beginsWord (prev next : Option Char) : Bool :=
  match prev with
  | none => false
  | some p =>
    isLowercase p || p.isDigit || (isUppercase p && next.any isLowercase)

/-- What one character adds to a name that so far ends in `last`. -/
def snakePiece (last prev : Option Char) (c : Char) (next : Option Char) : List Char :=
  let joinable := last.any (· != '_')
  if isSeparator c then if joinable then ['_'] else []
  else if isUppercase c then
    if joinable && beginsWord prev next then '_' :: lowerOf c else lowerOf c
  else [c]

/-- The words of the remaining characters, after `prev` was read and `last` was written. -/
def snakeChars (last prev : Option Char) : List Char → List Char
  | [] => []
  | c :: cs =>
    let piece := snakePiece last prev c cs.head?
    piece ++ snakeChars (piece.getLast?.or last) (some c) cs

/-- `reviewScore` becomes `review_score`, and `HTTPServer` becomes `http_server`. -/
def snake (s : String) : String :=
  String.ofList (snakeChars none none s.toList)

end SchemaSnippets.Text
