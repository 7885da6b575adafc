/-!
# Reading UTF-8

Bytes are read character by character. What is no character is cut into the longest beginnings of
characters, each of which counts as one fault.

* `decodeFirst`: the first character or fault, and the bytes after it.
* `decode?`: the text of bytes without a fault.
* `decodeLossy`: the text with the replacement character for each fault.
-/

namespace SchemaSnippets.Text

/-- Whether `b` continues a character. -/
def isContinuation (b : UInt8) : Bool :=
  0x80 ≤ b && b ≤ 0xBF

/-- How many bytes follow the first byte of a character, and the range of the next one. -/
def leadOf? (b : UInt8) : Option (Nat × UInt8 × UInt8) :=
  if 0xC2 ≤ b ∧ b ≤ 0xDF then some (1, 0x80, 0xBF)
  else if b = 0xE0 then some (2, 0xA0, 0xBF)
  else if b = 0xED then some (2, 0x80, 0x9F)
  else if 0xE1 ≤ b ∧ b ≤ 0xEF then some (2, 0x80, 0xBF)
  else if b = 0xF0 then some (3, 0x90, 0xBF)
  else if 0xF1 ≤ b ∧ b ≤ 0xF3 then some (3, 0x80, 0xBF)
  else if b = 0xF4 then some (3, 0x80, 0x8F)
  else none

/-- The payload of the first byte of a character with `n` more bytes. -/
def leadBits (n : Nat) (b : UInt8) : Nat :=
  b.toNat % (if n = 1 then 0x20 else if n = 2 then 0x10 else 0x08)

/-- The bytes that continue a character, `n` more being needed, the first of them in a range. -/
def continueWith (code : Nat) : Nat → UInt8 → UInt8 → List UInt8 → Option Char × List UInt8
  | 0, _, _, bs => (some (Char.ofNat code), bs)
  | _ + 1, _, _, [] => (none, [])
  | n + 1, low, high, b :: bs =>
    if low ≤ b ∧ b ≤ high then continueWith (code * 64 + b.toNat % 64) n 0x80 0xBF bs
    else (none, b :: bs)

/-- The first character, or a fault, and the bytes after it. -/
def decodeFirst (b : UInt8) (bs : List UInt8) : Option Char × List UInt8 :=
  if b < 0x80 then (some (Char.ofNat b.toNat), bs)
  else
    match leadOf? b with
    | some (n, low, high) => continueWith (leadBits n b) n low high bs
    | none => (none, bs)

/-- The characters and faults of some bytes; `fuel` is at least their number. -/
def decodeParts : Nat → List UInt8 → List (Option Char)
  | 0, _ => []
  | _ + 1, [] => []
  | fuel + 1, b :: bs =>
    let (c, rest) := decodeFirst b bs
    c :: decodeParts fuel rest

/-- The text of bytes, if they are UTF-8. -/
def decode? (bs : List UInt8) : Option String :=
  ((decodeParts bs.length bs).mapM id).map String.ofList

/-- The text of bytes, with `U+FFFD` for what is no character. -/
def decodeLossy (bs : List UInt8) : String :=
  String.ofList ((decodeParts bs.length bs).map fun c => c.getD '\ufffd')

end SchemaSnippets.Text
