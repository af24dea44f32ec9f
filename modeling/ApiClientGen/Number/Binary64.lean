/-!
Binary numbers of 64 bits, held exactly: a finite one is a sign and `mantissa * 2 ^ exponent`.
A decimal is rounded to the nearest of them, a tie to the even mantissa, in exact integer
arithmetic.
-/
namespace ApiClientGen

/-- A 64-bit binary number. A finite one has a mantissa below `2 ^ 53` and an exponent of at least
`-1074`; the mantissa is at least `2 ^ 52` unless the exponent is `-1074`. -/
inductive Binary64
  | nan
  | infinity (negative : Bool)
  | finite (negative : Bool) (mantissa : Nat) (exponent : Int)
  deriving DecidableEq, Repr, Inhabited

namespace Binary64

/-- A power of natural numbers. The operation is spelled out, so that it is the same one whatever
other powers are known. -/
def power (base exponent : Nat) : Nat :=
  @HPow.hPow Nat Nat Nat (@instHPow Nat Nat (@instPowNat Nat instNatPowNat)) base exponent

def roundQuotient (numerator denominator : Nat) : Nat :=
  let quotient := numerator / denominator
  let twice := 2 * (numerator % denominator)
  if twice < denominator ∨ (twice = denominator ∧ quotient % 2 = 0) then quotient
  else quotient + 1

/-- `value` such that the fraction is at least `2 ^ value` and less than `2 ^ (value + 1)`. -/
def binaryOrder (numerator denominator : Nat) : Int :=
  let guess : Int := (numerator.log2 : Int) - denominator.log2
  let reached :=
    if 0 ≤ guess then denominator * power 2 guess.toNat ≤ numerator
    else denominator ≤ numerator * power 2 (-guess).toNat
  if reached then guess else guess - 1

def ofFraction (negative : Bool) (numerator denominator : Nat) : Binary64 :=
  let exponent := max (binaryOrder numerator denominator - 52) (-1074)
  let mantissa :=
    if 0 ≤ exponent then roundQuotient numerator (denominator * power 2 exponent.toNat)
    else roundQuotient (numerator * power 2 (-exponent).toNat) denominator
  let (mantissa, exponent) :=
    if mantissa = power 2 53 then (power 2 52, exponent + 1) else (mantissa, exponent)
  if 971 < exponent then infinity negative else finite negative mantissa exponent

/-- The number nearest to `digits * 10 ^ scale`. Far outside the range of finite numbers the
answer is known without the power. -/
def ofDecimal (negative : Bool) (digits : Nat) (scale : Int) : Binary64 :=
  let places : Int := (Nat.toDigits 10 digits).length
  if digits = 0 ∨ scale + places < -330 then finite negative 0 (-1074)
  else if 310 < scale + places then infinity negative
  else if 0 ≤ scale then ofFraction negative (digits * power 10 scale.toNat) 1
  else ofFraction negative digits (power 10 (-scale).toNat)

def toInt? : Binary64 → Option Int
  | finite negative mantissa exponent =>
    let size? :=
      if 0 ≤ exponent then some (mantissa * power 2 exponent.toNat)
      else
        let unit := power 2 (-exponent).toNat
        if mantissa % unit = 0 then some (mantissa / unit) else none
    size?.map fun size => if negative then -(size : Int) else size
  | _ => none

end Binary64

end ApiClientGen
