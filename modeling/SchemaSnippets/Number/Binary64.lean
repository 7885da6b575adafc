/-!
# Binary floating point

The finite numbers of the 64-bit binary format, as a sign, a significand and a power of two. A
quotient of naturals is rounded to the nearest of them, a tie to the even significand.

* `Magnitude.ofRatio?`: the nearest number, unless it is beyond the range.
* `Magnitude.scale?`: a decimal significand times a power of ten, in the two roundings of a reader
  that holds significand and power as numbers of the format.
-/

namespace SchemaSnippets.Number

/-- The number `significand * 2 ^ exponent`. In lowest form the significand has 53 bits, or the
exponent is the least one, `-1074`. -/
structure Magnitude where
  significand : Nat
  exponent : Int
deriving DecidableEq, Repr

/-- A number of the format. Zero has a sign too. -/
structure Binary64 where
  negative : Bool
  magnitude : Magnitude
deriving DecidableEq, Repr

/-- The quotient `num / den` rounded to the nearest natural, a tie to the even one. -/
def roundDiv (num den : Nat) : Nat :=
  let q := num / den
  let r := num % den
  if 2 * r < den then q
  else if den < 2 * r then q + 1
  else if q % 2 = 0 then q else q + 1

/-- The numerator and denominator of `num / den` divided by `2 ^ e`. -/
def shiftRatio (num den : Nat) (e : Int) : Nat × Nat :=
  if e < 0 then (num * Nat.pow 2 (-e).toNat, den) else (num, den * Nat.pow 2 e.toNat)

/-- The greatest `e` with `2 ^ e ≤ num / den`, for positive `num` and `den`. -/
def logRatio (num den : Nat) : Int :=
  let e : Int := (num.log2 : Int) - den.log2
  let (a, b) := shiftRatio num den e
  if b ≤ a then e else e - 1

namespace Magnitude

def zero : Magnitude := ⟨0, -1074⟩

/-- The number nearest to `num / den`; `none` when it is beyond the range. -/
def ofRatio? (num den : Nat) : Option Magnitude :=
  if num = 0 then some zero
  else
    let e := max (logRatio num den - 52) (-1074)
    let (a, b) := shiftRatio num den e
    let m := roundDiv a b
    let x : Magnitude := if m = Nat.pow 2 53 then ⟨Nat.pow 2 52, e + 1⟩ else ⟨m, e⟩
    if x.exponent > 971 then none else some x

/-- The value as a quotient of naturals. -/
def toRatio (x : Magnitude) : Nat × Nat :=
  if x.exponent < 0 then (x.significand, Nat.pow 2 (-x.exponent).toNat)
  else (x.significand * Nat.pow 2 x.exponent.toNat, 1)

def mul? (x y : Magnitude) : Option Magnitude :=
  ofRatio? (x.toRatio.1 * y.toRatio.1) (x.toRatio.2 * y.toRatio.2)

/-- Division by a number that is not zero. -/
def div? (x y : Magnitude) : Option Magnitude :=
  ofRatio? (x.toRatio.1 * y.toRatio.2) (x.toRatio.2 * y.toRatio.1)

/-- The number nearest to `10 ^ n`, for `n` up to 308. -/
def powTen? (n : Nat) : Option Magnitude :=
  ofRatio? (Nat.pow 10 n) 1

/-- `x` times `10 ^ e`, by powers of at most 308. A power above that is beyond the range unless `x`
is zero, and one far below makes `x` zero; `steps` bounds the divisions that this takes. -/
def scaleBy? (steps : Nat) (x : Magnitude) (e : Int) : Option Magnitude :=
  if e.natAbs ≤ 308 then
    (powTen? e.natAbs).bind fun p => if 0 ≤ e then x.mul? p else x.div? p
  else if x.significand = 0 then some x
  else if 0 ≤ e then none
  else
    match steps with
    | 0 => some zero
    | steps + 1 =>
      (powTen? 308).bind fun p => (x.div? p).bind fun y => scaleBy? steps y (e + 308)

/-- The number read from a decimal significand and a power of ten. Three divisions by `10 ^ 308`
take every significand below `2 ^ 64` to zero. -/
def scale? (significand : Nat) (e : Int) : Option Magnitude :=
  (ofRatio? significand 1).bind fun x => scaleBy? 3 x e

end Magnitude

end SchemaSnippets.Number
