import PropertyLayers.Number.Binary64

/-!
# Decimal numerals

A decimal numeral has an integral part, an optional fraction and an optional power of ten; single
underscores may stand between its digits.
-/

namespace PropertyLayers

/-- A decimal numeral: `digits · 10 ^ exponent`, with its sign. -/
structure Decimal where
  negative : Bool
  digits : Nat
  exponent : Int
deriving DecidableEq

namespace Decimal

def digitValue (c : CodePoint) : Nat := c.val - '0'.toNat

def natOfDigits (t : Text) : Nat := t.foldl (fun n c => n * 10 + digitValue c) 0

/-- Whether the text starts with a minus sign, and what follows its sign. -/
def takeSign : Text → Bool × Text
  | [] => (false, [])
  | c :: rest =>
    if c = '-' then (true, rest) else if c = '+' then (false, rest) else (false, c :: rest)

def intOfDigits (t : Text) : Int :=
  let (negative, digits) := takeSign t
  if negative then -(natOfDigits digits : Int) else natOfDigits digits

def withoutUnderscores (t : Text) : Text := t.filter fun c => c ≠ '_'

def ofText (t : Text) : Decimal :=
  let (negative, t) := takeSign (withoutUnderscores t)
  let (mantissa, power) := match t.span fun c : CodePoint => c ≠ 'e' && c ≠ 'E' with
    | (mantissa, []) => (mantissa, 0)
    | (mantissa, _ :: power) => (mantissa, intOfDigits power)
  match mantissa.span fun c : CodePoint => c ≠ '.' with
  | (whole, []) => { negative, digits := natOfDigits whole, exponent := power }
  | (whole, _ :: fraction) =>
    { negative, digits := natOfDigits (whole ++ fraction), exponent := power - fraction.length }

def toBinary64 (d : Decimal) : Binary64 := .ofDecimal d.negative d.digits d.exponent

end Decimal

end PropertyLayers
