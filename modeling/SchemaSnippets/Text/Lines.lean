import SchemaSnippets.Unicode.Property

/-!
# Lines, trimming and positions

Text is taken as its list of characters. A line ends at a line feed, and a carriage return just
before that feed belongs to the line's end; a last line without a line feed keeps all it has.

* `trimChars`, `trim`: white space at both ends is dropped.
* `pieces`: the text cut after each line feed; `flatten_pieces` says that nothing is lost.
* `lines`: the pieces without their line ends.

Positions count UTF-8 bytes. A place given by line and column, both from one, is the start of its
line plus the column, kept inside the text; a key of a document is found by its quoted spelling.
-/

namespace SchemaSnippets.Text
open Unicode

/-- The characters with white space dropped from the end. -/
def trimEndChars (cs : List Char) : List Char :=
  (cs.reverse.dropWhile isWhitespace).reverse

/-- The characters with white space dropped from both ends. -/
def trimChars (cs : List Char) : List Char :=
  trimEndChars (cs.dropWhile isWhitespace)

/-- The text with white space dropped from both ends. -/
def trim (s : String) : String :=
  String.ofList (trimChars s.toList)

/-- The text with white space dropped from the end. -/
def trimEnd (s : String) : String :=
  String.ofList (trimEndChars s.toList)

/-- The text with line feeds dropped from the end. -/
def trimEndFeeds (s : String) : String :=
  String.ofList (s.toList.reverse.dropWhile (· == '\n')).reverse

/-- The text cut after each line feed; no piece is empty. -/
def pieces : List Char → List (List Char)
  | [] => []
  | c :: cs =>
    if c = '\n' then ['\n'] :: pieces cs
    else
      match pieces cs with
      | [] => [[c]]
      | p :: ps => (c :: p) :: ps

/-- A piece without its line end. -/
def dropLineEnd (p : List Char) : List Char :=
  match p.reverse with
  | '\n' :: '\r' :: r => r.reverse
  | '\n' :: r => r.reverse
  | _ => p

/-- The lines of a text. -/
def lines (s : String) : List String :=
  (pieces s.toList).map fun p => String.ofList (dropLineEnd p)

theorem flatten_pieces (cs : List Char) : (pieces cs).flatten = cs := by
  induction cs with
  | nil => rfl
  | cons c cs ih =>
    unfold pieces
    split
    · simp_all
    · cases h : pieces cs <;> simp_all

/-! ## Positions -/

/-- A stretch of a text: where it starts and how long it is, in bytes. -/
structure Span where
  offset : Nat
  length : Nat
deriving DecidableEq, Repr

/-- The number of bytes of the characters. -/
def byteLength : List Char → Nat
  | [] => 0
  | c :: cs => c.utf8Size + byteLength cs

/-- The byte at a line and column, both from one, clamped to the last byte of the text. -/
def offsetAt (src : String) (line column : Nat) : Nat :=
  let cs := src.toList
  let lineStart := byteLength ((pieces cs).take (line - 1)).flatten
  min (lineStart + (column - 1)) (byteLength cs - 1)

/-- The characters before the first occurrence of `needle`. -/
def before? (needle : List Char) : List Char → Option (List Char)
  | [] => if needle.isEmpty then some [] else none
  | c :: cs =>
    if needle.isPrefixOf (c :: cs) then some []
    else (before? needle cs).map (c :: ·)

/-- The first place where `key` stands in double quotes. -/
def spanOfKey? (src key : String) : Option Span :=
  let quoted := '"' :: (key.toList ++ ['"'])
  (before? quoted src.toList).map fun before => ⟨byteLength before, byteLength quoted⟩

end SchemaSnippets.Text
