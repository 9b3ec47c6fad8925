import PropertyLayers.Text.Basic

/-!
# Binary numbers of 64 bits

A finite number is a mantissa times a power of two. A decimal becomes the nearest such number, of
two that are equally near the one with the even mantissa, and is infinite past the largest.
-/

namespace PropertyLayers

inductive Binary64 where
  | finite (negative : Bool) (mantissa : Nat) (exponent : Int)
  | infinite (negative : Bool)
  | nan
deriving DecidableEq

namespace Binary64

/-- The least mantissa of 53 bits. -/
def leastFull : Nat := 0x10000000000000

/-- A power of a base, and 1 where the exponent is negative. -/
def scale (base : Nat) (exponent : Int) : Nat := base.pow exponent.toNat

/-- The quotient rounded to the nearest number, a half to the even one. -/
def roundQuotient (num den : Nat) : Nat :=
  let q := num / den
  let r := num % den
  if 2 * r < den then q
  else if den < 2 * r then q + 1
  else if q % 2 = 0 then q else q + 1

/-- The numerator and denominator of a quotient divided by a power of two. -/
def scaleDown (num den : Nat) (exponent : Int) : Nat × Nat :=
  (num * scale 2 (-exponent), den * scale 2 exponent)

/-- The power of two that leaves a mantissa of 53 bits, or the least there is. -/
def exponentFor (num den : Nat) : Int :=
  let guess : Int := (num.log2 : Int) - den.log2 - 52
  let (n, d) := scaleDown num den guess
  let exponent := if n < d * leastFull then guess - 1 else guess
  if exponent < -1074 then -1074 else exponent

def ofQuotient (negative : Bool) (num den : Nat) : Binary64 :=
  if num = 0 then .finite negative 0 (-1074)
  else
    let exponent := exponentFor num den
    let (n, d) := scaleDown num den exponent
    let mantissa := roundQuotient n d
    let (mantissa, exponent) :=
      if mantissa = 2 * leastFull then (leastFull, exponent + 1) else (mantissa, exponent)
    if 971 < exponent then .infinite negative else .finite negative mantissa exponent

/-- The number nearest to `digits · 10 ^ exponent`. Far outside the range the powers of ten are
never formed. -/
def ofDecimal (negative : Bool) (digits : Nat) (exponent : Int) : Binary64 :=
  let magnitude : Int := (Nat.toDigits 10 digits).length + exponent
  if digits = 0 || magnitude < -330 then .finite negative 0 (-1074)
  else if 310 < magnitude then .infinite negative
  else ofQuotient negative (digits * scale 10 exponent) (scale 10 (-exponent))

/-- The whole number that this is, if it is one. -/
def toInt? : Binary64 → Option Int
  | .finite negative mantissa exponent =>
    let den := scale 2 (-exponent)
    if mantissa % den = 0 then
      let n : Int := (mantissa / den * scale 2 exponent : Nat)
      some (if negative then -n else n)
    else none
  | .infinite _ => none
  | .nan => none

end Binary64

end PropertyLayers
