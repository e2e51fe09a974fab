import PlatformClient.Number.Binary64

namespace PlatformClient.Binary64

/-- A decimal: `digits * 10 ^ places`. -/
structure Decimal where
  digits : Nat
  places : Int
  deriving DecidableEq, Repr

/-- The powers of ten by which two sides of a comparison with
`10 ^ places` are multiplied: the one for the other side first. -/
def powersOfTen (places : Int) : Nat × Nat :=
  (Nat.pow 10 (-places).toNat, Nat.pow 10 places.toNat)

/-- The largest `k` with `10 ^ k` at most the magnitude of a nonzero number. -/
def decimalExponent (x : Binary64) : Int :=
  let reaches (k : Int) : Bool :=
    let (up, down) := powerOfTwo x.exponent
    let (left, right) := powersOfTen k
    right * down ≤ x.mantissa * up * left
  let guess := ((Nat.log2 x.mantissa : Int) + x.exponent) * 30103 / 100000
  if reaches (guess + 1) then guess + 1
  else if reaches guess then guess
  else guess - 1

/-- The decimal on the grid of `10 ^ places` nearest to a number, a tie going
to the even one, among the two neighbours of the number that read back as it.
Four times the mantissa makes the ends of the interval of such values whole. -/
def nearestOnGrid (x : Binary64) (places : Int) : Option Decimal :=
  let (up, down) := powerOfTwo (x.exponent - 2)
  let (left, right) := powersOfTen places
  let scaled (quarters : Nat) : Nat := quarters * up * left
  let gap : Nat := if x.mantissa = leastMantissa ∧ x.exponent ≠ leastExponent then 1 else 2
  let low := scaled (4 * x.mantissa - gap)
  let high := scaled (4 * x.mantissa + 2)
  let value := scaled (4 * x.mantissa)
  let cell := down * right
  let inside (d : Nat) : Bool :=
    if x.mantissa % 2 = 0 then low ≤ d * cell && d * cell ≤ high
    else low < d * cell && d * cell < high
  let below := value / cell
  match inside below, inside (below + 1) with
  | false, false => none
  | true, false => some ⟨below, places⟩
  | false, true => some ⟨below + 1, places⟩
  | true, true =>
    let rest := 2 * (value % cell)
    if rest < cell ∨ (rest = cell ∧ below % 2 = 0) then some ⟨below, places⟩
    else some ⟨below + 1, places⟩

/-- The decimal of fewest digits that reads back as a nonzero number, and the
nearest of those. Seventeen digits always suffice. -/
def shortest (x : Binary64) : Decimal :=
  let exponent := x.decimalExponent
  ((List.range 17).findSome? fun (n : Nat) => x.nearestOnGrid (exponent - n)).getD ⟨0, 0⟩

def Decimal.stripZeros : Nat → Decimal → Decimal
  | 0, d => d
  | fuel + 1, d =>
    if d.digits ≠ 0 ∧ d.digits % 10 = 0 then stripZeros fuel ⟨d.digits / 10, d.places + 1⟩ else d

/-- Values from `10 ^ -5` up to, and not including, `10 ^ 16` are written with
all their places and at least one digit after the point; others with an
exponent that always has a sign. -/
def Decimal.print (d : Decimal) : List Char :=
  let digits := Nat.toDigits 10 d.digits
  let point : Int := digits.length + d.places
  if 0 < point ∧ point ≤ 16 then
    if 0 ≤ d.places then digits ++ List.replicate d.places.toNat '0' ++ ['.', '0']
    else digits.take point.toNat ++ '.' :: digits.drop point.toNat
  else if -5 < point ∧ point ≤ 0 then
    '0' :: '.' :: List.replicate (-point).toNat '0' ++ digits
  else
    let exponent := point - 1
    digits.take 1 ++ (if digits.length = 1 then [] else '.' :: digits.drop 1) ++
      'e' :: (if exponent < 0 then '-' else '+') :: Nat.toDigits 10 exponent.natAbs

def print (x : Binary64) : List Char :=
  let magnitude :=
    if x.isZero then ['0', '.', '0'] else (Decimal.stripZeros 400 x.shortest).print
  if x.negative then '-' :: magnitude else magnitude

end PlatformClient.Binary64
