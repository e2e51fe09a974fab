namespace PlatformClient

/-- A finite binary floating point number of 64 bits. Its magnitude is
`mantissa * 2 ^ exponent`; the mantissa has 53 bits unless the exponent is the
least one, `-1074`. -/
structure Binary64 where
  negative : Bool
  mantissa : Nat
  exponent : Int
  deriving DecidableEq, Repr

namespace Binary64

def leastExponent : Int := -1074
def greatestExponent : Int := 971

/-- The first number of 54 bits. -/
def mantissaLimit : Nat := 0x20000000000000

/-- The least number of 53 bits. -/
def leastMantissa : Nat := 0x10000000000000

def zero : Binary64 := ⟨false, 0, leastExponent⟩

def isZero (x : Binary64) : Bool := x.mantissa == 0

def neg (x : Binary64) : Binary64 := { x with negative := !x.negative }

/-- A positive power of two that makes `2 ^ exponent` a quotient of naturals:
numerator first. -/
def powerOfTwo (exponent : Int) : Nat × Nat :=
  (Nat.pow 2 exponent.toNat, Nat.pow 2 (-exponent).toNat)

/-- A quotient rounded to the nearest natural, a half to the even one. -/
def roundHalfEven (numerator denominator : Nat) : Nat :=
  let quotient := numerator / denominator
  let rest := numerator % denominator
  if 2 * rest > denominator ∨ (2 * rest = denominator ∧ quotient % 2 = 1) then quotient + 1
  else quotient

/-- The exponent that gives a positive quotient a mantissa of 53 bits, or the
least exponent. -/
def exponentOf (numerator denominator : Nat) : Int :=
  let guess : Int := (Nat.log2 numerator : Int) - Nat.log2 denominator - 53
  let (up, down) := powerOfTwo guess
  let exponent := if numerator * down < mantissaLimit * (denominator * up) then guess else guess + 1
  max exponent leastExponent

/-- The number nearest to a quotient of naturals, or `none` when the quotient
is too large. -/
def ofRatio (numerator denominator : Nat) : Option Binary64 :=
  if numerator = 0 then some zero
  else
    let exponent := exponentOf numerator denominator
    let (up, down) := powerOfTwo exponent
    let mantissa := roundHalfEven (numerator * down) (denominator * up)
    let (mantissa, exponent) :=
      if mantissa = mantissaLimit then (leastMantissa, exponent + 1) else (mantissa, exponent)
    if exponent > greatestExponent then none else some ⟨false, mantissa, exponent⟩

/-- The nearest number, with the value of the largest one for naturals out of
range. -/
def ofNat (n : Nat) : Binary64 :=
  (ofRatio n 1).getD ⟨false, mantissaLimit - 1, greatestExponent⟩

/-- The number nearest to a power of ten up to `10 ^ 308`. -/
def powerOfTen (k : Nat) : Binary64 := ofNat (Nat.pow 10 k)

def mul? (x y : Binary64) : Option Binary64 :=
  let (up, down) := powerOfTwo (x.exponent + y.exponent)
  (ofRatio (x.mantissa * y.mantissa * up) down).map fun magnitude =>
    { magnitude with negative := x.negative != y.negative }

def div? (x y : Binary64) : Option Binary64 :=
  let (up, down) := powerOfTwo (x.exponent - y.exponent)
  (ofRatio (x.mantissa * up) (y.mantissa * down)).map fun magnitude =>
    { magnitude with negative := x.negative != y.negative }

/-- A number times a power of ten, where each step of at most 308 places is
rounded. It is `none` when the result is too large. -/
def scale : Nat → Binary64 → Int → Option Binary64
  | steps, x, places =>
    if places.natAbs ≤ 308 then
      if 0 ≤ places then x.mul? (powerOfTen places.toNat)
      else x.div? (powerOfTen places.natAbs)
    else if x.isZero then some x
    else if 0 ≤ places then none
    else match steps with
      | 0 => some zero
      | steps + 1 => (x.div? (powerOfTen 308)).bind fun y => scale steps y (places + 308)

/-- The number read from the digits of a decimal and the place of its point:
the digits are rounded first, and then scaled. -/
def ofDecimal (digits : Nat) (places : Int) : Option Binary64 :=
  scale places.natAbs (ofNat digits) places

end Binary64

end PlatformClient
