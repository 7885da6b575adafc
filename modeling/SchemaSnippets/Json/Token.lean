import SchemaSnippets.Number.Shortest
import SchemaSnippets.Text.Lines

/-!
# Tokens of a JSON text

A text is cut into lexemes: some blanks, then the characters of one token. Nothing is lost, so where
a token stands is the length of what is before it.

* `Number`: an integer in the range of 64 bits stays an integer, any other number is a binary
  floating point number; beyond its range it is a number that cannot be read.
* `stringBody?`, `unescape?`: the characters of a string, and the text they stand for. Escapes that
  do not pair up to a character are well-formed and stand for no text.
* `lexemes?`: the tokens of a text, `none` where no token begins.
-/

namespace SchemaSnippets.Json
open Number

/-- The value of a number. -/
inductive Number where
  | integer (i : Int)
  | float (x : Binary64)
  | outOfRange
deriving DecidableEq, Repr

/-- What a token says. A string holds its text, if its escapes form one. -/
inductive Token where
  | openBrace | closeBrace | openBracket | closeBracket | comma | colon
  | null | bool (b : Bool)
  | number (n : Number)
  | string (text : Option String)
deriving DecidableEq, Repr

/-- A token as it stands in a text: the blanks before it and its own characters. -/
structure Lexeme where
  blanks : List Char
  chars : List Char
  token : Token
deriving DecidableEq, Repr

/-- The characters allowed between tokens. -/
def isBlank (c : Char) : Bool :=
  c == ' ' || c == '\n' || c == '\t' || c == '\r'

/-! ## Strings -/

/-- The value of a hexadecimal digit. -/
def hexValue? (c : Char) : Option Nat :=
  if c.isDigit then some (c.toNat - 48)
  else if 'a' ≤ c ∧ c ≤ 'f' then some (c.toNat - 87)
  else if 'A' ≤ c ∧ c ≤ 'F' then some (c.toNat - 55)
  else none

/-- The value of four hexadecimal digits. -/
def hexUnit? (a b c d : Char) : Option Nat := do
  let a ← hexValue? a
  let b ← hexValue? b
  let c ← hexValue? c
  let d ← hexValue? d
  return ((a * 16 + b) * 16 + c) * 16 + d

/-- The character that a letter after a backslash stands for. -/
def escapedChar? : Char → Option Char
  | '"' => some '"'
  | '\\' => some '\\'
  | '/' => some '/'
  | 'b' => some '\x08'
  | 'f' => some '\x0c'
  | 'n' => some '\n'
  | 'r' => some '\r'
  | 't' => some '\t'
  | _ => none

/-- What stands before the closing quote, and the rest after it. Control characters must be
escaped, and an escape is a known letter or four hexadecimal digits. -/
def stringBody? : List Char → Option (List Char × List Char)
  | [] => none
  | '"' :: cs => some ([], cs)
  | '\\' :: 'u' :: a :: b :: c :: d :: cs =>
    if (hexUnit? a b c d).isSome then
      (stringBody? cs).map fun (body, rest) => ('\\' :: 'u' :: a :: b :: c :: d :: body, rest)
    else none
  | '\\' :: e :: cs =>
    if (escapedChar? e).isSome then
      (stringBody? cs).map fun (body, rest) => ('\\' :: e :: body, rest)
    else none
  | c :: cs =>
    if c = '\\' ∨ c.toNat < 0x20 then none
    else (stringBody? cs).map fun (body, rest) => (c :: body, rest)

/-- The text of a body that `stringBody?` accepts. A unit of the range `D800`–`DBFF` needs a unit of
the range `DC00`–`DFFF` after it, and the latter stands nowhere else. -/
def unescape? : List Char → Option (List Char)
  | [] => some []
  | '\\' :: 'u' :: a :: b :: c :: d :: cs => do
    let u ← hexUnit? a b c d
    if 0xDC00 ≤ u ∧ u ≤ 0xDFFF then none
    else if 0xD800 ≤ u ∧ u ≤ 0xDBFF then
      match cs with
      | '\\' :: 'u' :: a' :: b' :: c' :: d' :: cs => do
        let v ← hexUnit? a' b' c' d'
        if 0xDC00 ≤ v ∧ v ≤ 0xDFFF then
          let rest ← unescape? cs
          return Char.ofNat (0x10000 + (u - 0xD800) * 0x400 + (v - 0xDC00)) :: rest
        else none
      | _ => none
    else
      let rest ← unescape? cs
      return Char.ofNat u :: rest
  | '\\' :: e :: cs => do
    let c ← escapedChar? e
    let rest ← unescape? cs
    return c :: rest
  | c :: cs => do
    let rest ← unescape? cs
    return c :: rest

/-! ## Numbers -/

/-- A number as it is written: sign, digits before and after the point, and exponent. -/
structure Numeral where
  negative : Bool
  whole : List Char
  fraction : Option (List Char)
  exponent : Option Int

/-- The value of decimal digits. -/
def natOfDigits (ds : List Char) : Nat :=
  ds.foldl (fun n d => n * 10 + (d.toNat - 48)) 0

/-- Digits taken into a significand while it fits 64 bits; the others are left over. -/
def takeSignificand (significand : Nat) : List Char → Nat × List Char
  | [] => (significand, [])
  | d :: ds =>
    let next := significand * 10 + (d.toNat - 48)
    if next < Nat.pow 2 64 then takeSignificand next ds else (significand, d :: ds)

/-- The value of a numeral. Digits that the significand has no room for count as zeros. -/
def Numeral.value (n : Numeral) : Number :=
  let (s, surplus) := takeSignificand 0 n.whole
  let whole := natOfDigits n.whole
  let isInteger := n.fraction.isNone && n.exponent.isNone && surplus.isEmpty &&
    (if n.negative then 0 < whole && whole ≤ Nat.pow 2 63 else true)
  if isInteger then .integer (if n.negative then -whole else whole)
  else
    let fraction := n.fraction.getD []
    let (s, left) := takeSignificand s fraction
    let e := (n.exponent.getD 0) + surplus.length - (fraction.length - left.length)
    match Magnitude.scale? s e with
    | some m => .float ⟨n.negative, m⟩
    | none => .outOfRange

/-- The digits at the front and the rest. -/
def spanDigits (cs : List Char) : List Char × List Char :=
  cs.span Char.isDigit

/-- The fraction at the front: a point and at least one digit, or nothing. -/
def readFraction? : List Char → Option (Option (List Char) × List Char)
  | '.' :: cs =>
    match spanDigits cs with
    | ([], _) => none
    | (ds, rest) => some (some ds, rest)
  | cs => some (none, cs)

/-- The exponent at the front: a letter, perhaps a sign, and at least one digit, or nothing. -/
def readExponent? : List Char → Option (Option Int × List Char)
  | c :: cs =>
    if c = 'e' ∨ c = 'E' then
      let (negative, cs) : Bool × List Char :=
        match cs with
        | '-' :: r => (true, r)
        | '+' :: r => (false, r)
        | r => (false, r)
      match spanDigits cs with
      | ([], _) => none
      | (ds, rest) =>
        let e : Int := natOfDigits ds
        some (some (if negative then -e else e), rest)
    else some (none, c :: cs)
  | [] => some (none, [])

/-- The numeral at the front and the rest. Zero is not followed by a digit. -/
def readNumeral? (cs : List Char) : Option (Numeral × List Char) := do
  let (negative, cs) : Bool × List Char :=
    match cs with
    | '-' :: r => (true, r)
    | r => (false, r)
  let (whole, cs) := spanDigits cs
  if whole.isEmpty || (whole.head? == some '0' && 1 < whole.length) then none
  else
    let (fraction, cs) ← readFraction? cs
    let (exponent, cs) ← readExponent? cs
    return (⟨negative, whole, fraction, exponent⟩, cs)

/-! ## Lexemes -/

/-- A character that numbers are written with. -/
def inNumeral (c : Char) : Bool :=
  c.isDigit || c == '-' || c == '+' || c == '.' || c == 'e' || c == 'E'

/-- The token at the front with its characters, and the rest. No token may follow a number without a
divider, so a number takes all characters that it could be written with. -/
def readToken? : List Char → Option (Token × List Char × List Char)
  | '\x7b' :: cs => some (.openBrace, ['\x7b'], cs)
  | '\x7d' :: cs => some (.closeBrace, ['\x7d'], cs)
  | '[' :: cs => some (.openBracket, ['['], cs)
  | ']' :: cs => some (.closeBracket, [']'], cs)
  | ',' :: cs => some (.comma, [','], cs)
  | ':' :: cs => some (.colon, [':'], cs)
  | 'n' :: 'u' :: 'l' :: 'l' :: cs => some (.null, ['n', 'u', 'l', 'l'], cs)
  | 't' :: 'r' :: 'u' :: 'e' :: cs => some (.bool true, ['t', 'r', 'u', 'e'], cs)
  | 'f' :: 'a' :: 'l' :: 's' :: 'e' :: cs => some (.bool false, ['f', 'a', 'l', 's', 'e'], cs)
  | '"' :: cs =>
    (stringBody? cs).map fun (body, rest) =>
      (.string ((unescape? body).map String.ofList), '"' :: body ++ ['"'], rest)
  | cs =>
    let (chars, rest) := cs.span inNumeral
    match readNumeral? chars with
    | some (n, []) => some (.number n.value, chars, rest)
    | _ => none

/-- The lexemes of the characters and the blanks after the last one. Every token has a character, so
`fuel` above the number of characters is enough. -/
def lexemesFrom? : Nat → List Char → Option (List Lexeme × List Char)
  | 0, _ => none
  | fuel + 1, cs =>
    let (blanks, cs) := cs.span isBlank
    if cs.isEmpty then some ([], blanks)
    else do
      let (token, chars, rest) ← readToken? cs
      let (lexemes, tail) ← lexemesFrom? fuel rest
      return (⟨blanks, chars, token⟩ :: lexemes, tail)

/-- The lexemes of a text. -/
def lexemes? (s : String) : Option (List Lexeme) :=
  (lexemesFrom? (s.toList.length + 1) s.toList).map Prod.fst

end SchemaSnippets.Json
