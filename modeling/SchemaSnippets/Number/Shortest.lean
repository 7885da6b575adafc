import SchemaSnippets.Number.Binary64

/-!
# Shortest decimal text

A binary number is written with the fewest decimal digits that read back as the same number, and of
the decimals with that many digits the nearest one.

* `Interval`: the numbers that round to a given one, ends included when its significand is even.
* `Magnitude.shortest`: on the grids of 1, 2, … 17 significant digits, the value's two neighbours are tried.
* `Binary64.text`: positional where the leading digit stands for `10 ^ -5` up to `10 ^ 15`, always
  with a point; otherwise one digit, the point, the other digits and a signed exponent.
-/

namespace SchemaSnippets.Number

/-- The decimals that round to a number: between `low / den` and `high / den`. -/
structure Interval where
  low : Nat
  value : Nat
  high : Nat
  den : Nat
  closed : Bool

/-- The decimals that round to `x`. Just above a power of two the gap below is half as wide. -/
def Magnitude.interval (x : Magnitude) : Interval :=
  let m := x.significand
  let below := if m = Nat.pow 2 52 ∧ x.exponent > -1074 then 1 else 2
  let (num, den) := Magnitude.toRatio ⟨1, x.exponent - 2⟩
  ⟨(4 * m - below) * num, 4 * m * num, (4 * m + 2) * num, den, m % 2 = 0⟩

/-- Whether `num / den` lies in the interval. -/
def Interval.contains (i : Interval) (num den : Nat) : Bool :=
  let (l, v, h) := (i.low * den, num * i.den, i.high * den)
  if i.closed then l ≤ v && v ≤ h else l < v && v < h

/-- A decimal `coefficient * 10 ^ exponent`. -/
structure Decimal where
  coefficient : Nat
  exponent : Int
deriving DecidableEq, Repr

/-- A decimal as a quotient of naturals. -/
def Decimal.toRatio (d : Decimal) : Nat × Nat :=
  if d.exponent < 0 then (d.coefficient, Nat.pow 10 (-d.exponent).toNat)
  else (d.coefficient * Nat.pow 10 d.exponent.toNat, 1)

/-- The distance between a decimal and the value of the interval, over a denominator that depends on
the decimal's exponent only. -/
def Interval.distance (i : Interval) (d : Decimal) : Nat :=
  let (a, b) := d.toRatio
  ((a * i.den : Int) - i.value * b).natAbs

/-- The best multiple of `10 ^ e` in the interval, if one of the value's neighbours lies in it. Of
two at the same distance the even one is taken. -/
def Interval.onGrid? (i : Interval) (e : Int) : Option Decimal :=
  let q :=
    if e < 0 then i.value * Nat.pow 10 (-e).toNat / i.den
    else i.value / (i.den * Nat.pow 10 e.toNat)
  let inside := [Decimal.mk q e, ⟨q + 1, e⟩].filter fun d =>
    let (a, b) := d.toRatio
    i.contains a b
  match inside with
  | [] => none
  | [d] => some d
  | d :: d' :: _ =>
    if i.distance d < i.distance d' then some d
    else if i.distance d' < i.distance d then some d'
    else if q % 2 = 0 then some d else some d'

/-- The greatest `e` in `start - steps .. start` with `10 ^ e ≤ num / den`. -/
def logTen (num den : Nat) : Nat → Int → Int
  | 0, e => e
  | steps + 1, e =>
    let below :=
      if e < 0 then decide (den ≤ num * Nat.pow 10 (-e).toNat)
      else decide (den * Nat.pow 10 e.toNat ≤ num)
    if below then e else logTen num den steps (e - 1)

/-- The first grid from `digits` significant digits on that holds a decimal of the interval. -/
def Interval.firstGrid (i : Interval) (lead : Int) : Nat → Nat → Decimal
  | 0, digits => ⟨i.value / i.den, lead + 1 - digits⟩
  | steps + 1, digits =>
    match i.onGrid? (lead + 1 - digits) with
    | some d => d
    | none => i.firstGrid lead steps (digits + 1)

/-- A decimal without zeros at the end of its coefficient. -/
def Decimal.strip : Nat → Decimal → Decimal
  | 0, d => d
  | steps + 1, d =>
    if d.coefficient ≠ 0 ∧ d.coefficient % 10 = 0 then
      Decimal.strip steps ⟨d.coefficient / 10, d.exponent + 1⟩
    else d

/-- The shortest decimal that reads back as the positive number `x`. -/
def Magnitude.shortest (x : Magnitude) : Decimal :=
  let i := x.interval
  let guess : Int := ((x.significand.log2 : Int) + x.exponent) * 30103 / 100000 + 1
  let lead := logTen i.value i.den 4 guess
  (i.firstGrid lead 17 1).strip 20

/-- The text of a number that is not negative. -/
def Magnitude.text (x : Magnitude) : String :=
  if x.significand = 0 then "0.0"
  else
    let d := x.shortest
    let digits := toString d.coefficient
    let lead := d.exponent + digits.length - 1
    let zeros (n : Int) := String.ofList (List.replicate n.toNat '0')
    if lead < -5 ∨ 15 < lead then
      let rest := String.ofList (digits.toList.drop 1)
      let mark := if lead < 0 then "e-" else "e+"
      String.ofList (digits.toList.take 1) ++ (if rest = "" then "" else "." ++ rest) ++ mark
        ++ toString lead.natAbs
    else if lead < 0 then "0." ++ zeros (-lead - 1) ++ digits
    else if 0 ≤ d.exponent then digits ++ zeros d.exponent ++ ".0"
    else
      let whole := (lead + 1).toNat
      String.ofList (digits.toList.take whole) ++ "." ++ String.ofList (digits.toList.drop whole)

/-- The text of a number. -/
def Binary64.text (x : Binary64) : String :=
  (if x.negative then "-" else "") ++ x.magnitude.text

end SchemaSnippets.Number
