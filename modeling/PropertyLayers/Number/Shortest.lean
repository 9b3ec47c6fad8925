import PropertyLayers.Number.Binary64

/-!
# Shortest decimal texts

A number is written with the fewest digits that read back as it, and of those texts the nearest. On
each decimal grid only the two neighbours of the number are looked at: if any point of the grid
reads back, so does one of them.
-/

namespace PropertyLayers.Binary64

/-- A positive number with the bounds between which decimals read back as it, as numerators over one
denominator. The bounds themselves read back where the mantissa is even. -/
structure Neighbourhood where
  low : Nat
  value : Nat
  high : Nat
  den : Nat
  closed : Bool

/-- Below a power of two the numbers stand twice as close. -/
def neighbourhood (mantissa : Nat) (exponent : Int) : Neighbourhood :=
  let up := scale 2 (exponent - 2)
  let low := if mantissa = leastFull && -1074 < exponent then 4 * mantissa - 1 else 4 * mantissa - 2
  { low := low * up
    value := 4 * mantissa * up
    high := (4 * mantissa + 2) * up
    den := scale 2 (2 - exponent)
    closed := mantissa % 2 = 0 }

/-- Whether `digits · 10 ^ power` reads back as the number. -/
def Neighbourhood.holds (v : Neighbourhood) (digits : Nat) (power : Int) : Bool :=
  let decimal := digits * scale 10 power * v.den
  let unit := scale 10 (-power)
  if v.closed then v.low * unit ≤ decimal && decimal ≤ v.high * unit
  else v.low * unit < decimal && decimal < v.high * unit

/-- Half a step above the lower of the two neighbours; the sign of value minus that. -/
def Neighbourhood.compareMiddle (v : Neighbourhood) (digits : Nat) (power : Int) : Ordering :=
  compare (2 * v.value * scale 10 (-power)) ((2 * digits + 1) * scale 10 power * v.den)

/-- The nearest point of the grid of `10 ^ power` that reads back. -/
def Neighbourhood.onGrid? (v : Neighbourhood) (power : Int) : Option Nat :=
  let below := v.value * scale 10 (-power) / (v.den * scale 10 power)
  match v.holds below power, v.holds (below + 1) power with
  | true, false => some below
  | false, true => some (below + 1)
  | false, false => none
  | true, true =>
    match v.compareMiddle below power with
    | .lt => some below
    | .gt => some (below + 1)
    | .eq => some (if below % 2 = 0 then below else below + 1)

def decimalLength (n : Nat) : Nat := (Nat.toDigits 10 n).length

/-- How many digits stand before the point. -/
def Neighbourhood.magnitude (v : Neighbourhood) : Int :=
  let guess : Int := (decimalLength v.value : Int) - decimalLength v.den
  if v.den * scale 10 guess ≤ v.value * scale 10 (-guess) then guess + 1 else guess

/-- The digits and the power of ten of the first grid with a point that reads back; grids of
`count` digits and more are tried. -/
def Neighbourhood.search (v : Neighbourhood) (count : Nat) : Nat → Nat × Int
  | 0 => (v.value, 0)
  | tries + 1 =>
    let power := v.magnitude - count
    match v.onGrid? power with
    | some digits => (digits, power)
    | none => v.search (count + 1) tries

/-- Seventeen digits always tell a number from its neighbours. -/
def shortest (mantissa : Nat) (exponent : Int) : Nat × Int :=
  (neighbourhood mantissa exponent).search 1 17

def zeros (n : Nat) : List Char := List.replicate n '0'

/-- Positional from 0.0001 below 10 to the power 16; with a power of ten of two digits and more
outside. A whole number keeps a zero after its point. -/
def layOut (digits : List Char) (point : Int) : List Char :=
  if -4 < point && point ≤ 16 then
    if point ≤ 0 then '0' :: '.' :: zeros (-point).toNat ++ digits
    else if digits.length ≤ point.toNat then
      digits ++ zeros (point.toNat - digits.length) ++ ['.', '0']
    else digits.take point.toNat ++ '.' :: digits.drop point.toNat
  else
    let power := (point - 1).natAbs
    digits.take 1 ++ (if digits.length = 1 then [] else '.' :: digits.drop 1)
      ++ ['e', if point ≤ 0 then '-' else '+'] ++ (if power < 10 then ['0'] else [])
      ++ Nat.toDigits 10 power

def dropTrailingZeros (digits : List Char) : List Char :=
  (digits.reverse.dropWhile (· = '0')).reverse

def toText : Binary64 → Text
  | .finite negative mantissa exponent =>
    let unsigned :=
      if mantissa = 0 then ['0', '.', '0']
      else
        let (digits, power) := shortest mantissa exponent
        let written := Nat.toDigits 10 digits
        layOut (dropTrailingZeros written) (written.length + power)
    ((if negative then ['-'] else []) ++ unsigned).map CodePoint.ofChar
  | .infinite negative => if negative then "-inf" else "inf"
  | .nan => "nan"

end PropertyLayers.Binary64
