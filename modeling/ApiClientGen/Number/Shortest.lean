import ApiClientGen.Number.Binary64

/-!
The shortest decimal text of a binary number: the fewest digits that read back as the same number,
and of those the nearest to it.
-/
namespace ApiClientGen.Binary64

/-- Decimal digits without trailing zeros that stand behind the point, and the place of the point:
the value is `0.digits * 10 ^ point`. -/
structure Digits where
  digits : List Char
  point : Int
  deriving DecidableEq, Repr

def scaled (size : Nat) (exponent : Int) : Nat × Nat :=
  if 0 ≤ exponent then (size * power 2 exponent.toNat, 1)
  else (size, power 2 (-exponent).toNat)

/-- `value` such that the fraction is at least `10 ^ value` and less than `10 ^ (value + 1)`. -/
def decimalOrder (numerator denominator : Nat) : Int :=
  let guess : Int :=
    ((Nat.toDigits 10 numerator).length : Int) - (Nat.toDigits 10 denominator).length
  let reached :=
    if 0 ≤ guess then denominator * power 10 guess.toNat ≤ numerator
    else denominator ≤ numerator * power 10 (-guess).toNat
  if reached then guess else guess - 1

/-- Whether `count * 10 ^ scale` rounds to the number `mantissa * 2 ^ exponent`: it lies between
the midpoints to the two neighbours, or on one of them when the mantissa is even. -/
def roundsTo (mantissa : Nat) (exponent : Int) (count : Nat) (scale : Int) : Bool :=
  let low :=
    if mantissa = power 2 52 ∧ -1074 < exponent then 4 * mantissa - 1 else 4 * mantissa - 2
  let high := 4 * mantissa + 2
  let (ten, tenth) :=
    if 0 ≤ scale then (power 10 scale.toNat, 1) else (1, power 10 (-scale).toNat)
  let (two, half) := scaled 1 (exponent - 2)
  let value := count * ten * half
  let lowValue := low * two * tenth
  let highValue := high * two * tenth
  if mantissa % 2 = 0 then lowValue ≤ value && value ≤ highValue
  else lowValue < value && value < highValue

/-- The digits of the nearest hit on the grid of `10 ^ scale`, if one of the two grid points
around the number rounds to it. -/
def onGrid? (mantissa : Nat) (exponent : Int) (scale : Int) : Option Nat :=
  let (numerator, denominator) := scaled mantissa exponent
  let (numerator, denominator) :=
    if 0 ≤ scale then (numerator, denominator * power 10 scale.toNat)
    else (numerator * power 10 (-scale).toNat, denominator)
  let below := numerator / denominator
  let twice := 2 * (numerator % denominator)
  let nearest :=
    if twice < denominator ∨ (twice = denominator ∧ below % 2 = 0) then below else below + 1
  let other := if nearest = below then below + 1 else below
  if roundsTo mantissa exponent nearest scale then some nearest
  else if roundsTo mantissa exponent other scale then some other
  else none

def search (mantissa : Nat) (exponent : Int) : (tries : Nat) → (scale : Int) → Nat × Int
  | 0, scale => (0, scale)
  | tries + 1, scale =>
    match onGrid? mantissa exponent scale with
    | some count => (count, scale)
    | none => search mantissa exponent tries (scale - 1)

def shortest (mantissa : Nat) (exponent : Int) : Digits :=
  let (numerator, denominator) := scaled mantissa exponent
  let order := decimalOrder numerator denominator
  let (count, scale) := search mantissa exponent 17 order
  let digits := Nat.toDigits 10 count
  let kept := (digits.reverse.dropWhile (· = '0')).reverse
  ⟨kept, scale + digits.length⟩

structure Layout where
  /-- The least place of the point that is written positionally. -/
  lowest : Int
  /-- The greatest place of the point that is written positionally. -/
  highest : Int
  /-- The least number of digits in an exponent. -/
  exponentDigits : Nat

/-- Positional from `0.0001` to below `10 ^ 16`, otherwise an exponent of two digits at least. -/
def plainLayout : Layout := ⟨-3, 16, 2⟩

def positional (d : Digits) : List Char :=
  if d.point ≤ 0 then
    '0' :: '.' :: (List.replicate (-d.point).toNat '0' ++ d.digits)
  else
    let whole := d.point.toNat
    let front := d.digits.take whole
    let behind := d.digits.drop whole
    front ++ List.replicate (whole - front.length) '0' ++
      '.' :: (if behind.isEmpty then ['0'] else behind)

def exponential (layout : Layout) (d : Digits) : List Char :=
  let exponent := d.point - 1
  let size := Nat.toDigits 10 exponent.natAbs
  let mark := if exponent < 0 then '-' else '+'
  d.digits.take 1 ++ (if d.digits.length ≤ 1 then [] else '.' :: d.digits.drop 1) ++
    'e' :: mark :: (List.replicate (layout.exponentDigits - size.length) '0' ++ size)

def toText (layout : Layout) : Binary64 → String
  | .nan => "nan"
  | .infinity negative => if negative then "-inf" else "inf"
  | .finite negative mantissa exponent =>
    let size :=
      if mantissa = 0 then ['0', '.', '0']
      else
        let d := shortest mantissa exponent
        if layout.lowest ≤ d.point ∧ d.point ≤ layout.highest then positional d
        else exponential layout d
    String.ofList (if negative then '-' :: size else size)

end ApiClientGen.Binary64
