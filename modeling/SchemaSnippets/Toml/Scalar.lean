/-!
# Numbers and dates of TOML

The forms of integers, floating point numbers, dates and times. `isPlain` tells whether a literal has
one of them. No number is ever computed, so an integer is looked at only as far as its kind asks for:
behind a radix its digits may be missing, and behind its first underscore only the neighbours of
underscores count.
-/

namespace SchemaSnippets.Toml

def isHexDigit (c : Char) : Bool :=
  c.isDigit || ('a' ≤ c && c ≤ 'f') || ('A' ≤ c && c ≤ 'F')

/-- Whether every underscore is followed by a digit and preceded by one, where `fits` tells whether
one may stand in front. -/
def isSeparated (isDigit : Char → Bool) (fits : Bool) : List Char → Bool
  | [] => true
  | c :: cs =>
    if c = '_' then fits && cs.head?.any isDigit && isSeparated isDigit false cs
    else isSeparated isDigit (isDigit c) cs

/-- The literal without its sign. -/
def dropSign : List Char → List Char
  | '+' :: cs => cs
  | '-' :: cs => cs
  | cs => cs

/-- Whether the characters behind a radix are its digits. -/
def isRadixed (isDigit : Char → Bool) (cs : List Char) : Bool :=
  cs.all (fun c => isDigit c || c == '_') && isSeparated isHexDigit false cs

/-- The rest behind digits and underscores, of which at least one is a digit. Where `zeros` is false,
a zero does not begin a longer number. -/
def digits? (zeros : Bool) (cs : List Char) : Option (List Char) :=
  let (run, rest) := cs.span fun c => c.isDigit || c == '_'
  let count := (run.filter Char.isDigit).length
  if count = 0 || (!zeros && 1 < count && run.head? == some '0') then none else some rest

/-- The rest behind a fraction, if one begins here. -/
def fraction? : List Char → Option (List Char)
  | '.' :: cs => digits? true cs
  | cs => some cs

/-- The rest behind an exponent, if one begins here. -/
def exponent? : List Char → Option (List Char)
  | 'e' :: cs => digits? true (dropSign cs)
  | 'E' :: cs => digits? true (dropSign cs)
  | cs => some cs

/-- Whether the characters are whole digits with a fraction, an exponent or both. -/
def isFloat (cs : List Char) : Bool :=
  (((digits? false cs).bind fraction?).bind exponent?) == some []

/-! ## Dates and times -/

/-- The value of exactly two digits at the front. -/
def twoDigits? : List Char → Option (Nat × List Char)
  | a :: b :: cs =>
    if a.isDigit && b.isDigit then some ((a.toNat - 48) * 10 + (b.toNat - 48), cs) else none
  | _ => none

def isLeapYear (y : Nat) : Bool :=
  y % 4 == 0 && (y % 100 != 0 || y % 400 == 0)

def daysOf (y m : Nat) : Nat :=
  if m = 2 then (if isLeapYear y then 29 else 28)
  else if m = 4 ∨ m = 6 ∨ m = 9 ∨ m = 11 then 30 else 31

/-- The rest behind a date. -/
def date? (cs : List Char) : Option (List Char) := do
  let (century, cs) ← twoDigits? cs
  let (year, cs) ← twoDigits? cs
  match cs with
  | '-' :: cs =>
    let (month, cs) ← twoDigits? cs
    match cs with
    | '-' :: cs =>
      let (day, cs) ← twoDigits? cs
      if 1 ≤ month ∧ month ≤ 12 ∧ 1 ≤ day ∧ day ≤ daysOf (century * 100 + year) month then some cs
      else none
    | _ => none
  | _ => none

/-- The rest behind the seconds of a time and their fraction. -/
def seconds? (cs : List Char) : Option (List Char) := do
  let (second, cs) ← twoDigits? cs
  if 60 < second then none
  else
    match cs with
    | '.' :: cs =>
      match cs.span Char.isDigit with
      | ([], _) => none
      | (_, rest) => some rest
    | cs => some cs

/-- The rest behind a time of the day, whose seconds may be left off. -/
def time? (cs : List Char) : Option (List Char) := do
  let (hour, cs) ← twoDigits? cs
  match cs with
  | ':' :: cs =>
    let (minute, cs) ← twoDigits? cs
    if 23 < hour ∨ 59 < minute then none
    else
      match cs with
      | ':' :: cs => seconds? cs
      | cs => some cs
  | _ => none

/-- Whether the characters are an offset from UTC. -/
def isOffset : List Char → Bool
  | ['Z'] => true
  | ['z'] => true
  | sign :: cs =>
    (sign == '+' || sign == '-') &&
      match twoDigits? cs with
      | some (hour, ':' :: cs) =>
        match twoDigits? cs with
        | some (minute, []) => hour ≤ 23 && minute ≤ 59
        | _ => false
      | _ => false
  | [] => false

/-- Whether the characters are a date, a time, or a date and a time with or without an offset. -/
def isDateTime (cs : List Char) : Bool :=
  match date? cs with
  | some [] => true
  | some (c :: rest) =>
    (c == 'T' || c == 't' || c == ' ') &&
      match time? rest with
      | some zone => zone.isEmpty || isOffset zone
      | none => false
  | none => time? cs == some []

/-! ## Literals -/

/-- Whether the characters are a decimal number, a date or a time. What follows the first digits tells
which: nothing or an underscore an integer, a hyphen or a colon a date or a time, and a point or an
exponent later on a floating point number. -/
def isDecimalOrDate (cs : List Char) : Bool :=
  let body := dropSign cs
  let signed := body.length < cs.length
  let (digits, rest) := body.span Char.isDigit
  let startsWithZero := digits.head? == some '0'
  match rest with
  | [] => !digits.isEmpty && !(startsWithZero && 1 < digits.length)
  | c :: _ =>
    if c = '-' ∨ c = ':' then isDateTime cs
    else if ' ' ∈ rest then false
    else if rest.any fun c => c == '.' || c == 'e' || c == 'E' then
      isFloat body && isSeparated Char.isDigit signed body
    else c == '_' && !startsWithZero && isSeparated isHexDigit signed body

/-- Whether the characters are a number, a date or a time. -/
def isPlain : List Char → Bool
  | '0' :: 'x' :: cs => isRadixed isHexDigit cs
  | '0' :: 'o' :: cs => isRadixed (fun c => '0' ≤ c && c ≤ '7') cs
  | '0' :: 'b' :: cs => isRadixed (fun c => c == '0' || c == '1') cs
  | cs =>
    let body := dropSign cs
    body == ['i', 'n', 'f'] || body == ['n', 'a', 'n'] || isDecimalOrDate cs

end SchemaSnippets.Toml
