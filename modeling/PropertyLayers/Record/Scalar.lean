import PropertyLayers.Number.Decimal
import PropertyLayers.Record.Check
import PropertyLayers.Resource.Codec

/-!
# Checks of single values

A text is taken as it is unless its length or its content counts; then it has to be made of
characters, and surrogates are none. Truth values may be given by a few words or by 0 and 1.
Integers may be given by truth values, by integral numbers and by decimal texts, with blanks around
them, a sign, leading zeros, underscores between digits and a point with zeros behind it.
-/

namespace PropertyLayers

namespace Check

def text : Check Text
  | .text t => .ok t
  | _ => .fault .notText

/-- A text of at least so many characters. -/
def longText (least : Nat) : Check Text
  | .text t =>
    if t.hasSurrogate then .fault .notUnicode
    else if t.length < least then .fault .textTooShort
    else .ok t
  | _ => .fault .notText

/-- Goes on with a text of characters. -/
def ofCharacters {α : Type} (next : Text → Checked α) (t : Text) : Checked α :=
  if t.hasSurrogate then .fault .notUnicode else next t

def falseWords : List String := ["0", "off", "f", "false", "n", "no"]

def trueWords : List String := ["1", "on", "t", "true", "y", "yes"]

def boolOfWord (word : Text) : Checked Bool :=
  let word := word.map CodePoint.toLower
  if falseWords.any (Text.ofString · = word) then .ok false
  else if trueWords.any (Text.ofString · = word) then .ok true
  else .fault .unreadableBool

/-- The bound of integers of 64 bits: 2 to the power 63. -/
def int64Bound : Int := 0x8000000000000000

def inInt64 (n : Int) : Bool := -int64Bound ≤ n && n < int64Bound

/-- The integer that a number of 64 bits strictly between the bounds of 64-bit integers is. -/
def intOfFloat (x : Binary64) : Checked Int :=
  match x with
  | .finite .. =>
    match x.toInt? with
    | none => .fault .fractionalInt
    | some n => if inInt64 n && n ≠ -int64Bound then .ok n else .fault .intTooLong
  | _ => .fault .infiniteInt

def boolOfInt (n : Int) : Checked Bool :=
  if n = 0 then .ok false else if n = 1 then .ok true else .fault .unreadableBool

def bool : Check Bool
  | .bool b => .ok b
  | .text word => ofCharacters boolOfWord word
  | .int n => if inInt64 n then boolOfInt n else .fault .notBool
  | .float x =>
    match intOfFloat x with
    | .ok n => boolOfInt n
    | .faults _ => .fault .notBool
  | _ => .fault .notBool

/-- A truth value and nothing that stands for one. -/
def strictBool : Check Bool
  | .bool b => .ok b
  | _ => .fault .notBool

/-- Blanks that may stand around a number: the white space of Unicode. -/
def isSurrounding (c : CodePoint) : Bool := c.isBlank && !(28 ≤ c.val && c.val ≤ 31)

def trim (t : Text) : Text :=
  ((t.dropWhile isSurrounding).reverse.dropWhile isSurrounding).reverse

/-- Drops zeros and underscores in front of a digit or of a minus sign. Before a point or the end
the last of them is left. -/
def dropZerosAfter (last : CodePoint) : Text → Option Text
  | [] => some [last]
  | c :: rest =>
    if c = '0' || c = '_' then dropZerosAfter c rest
    else if c.isDigit || c = '-' then some (c :: rest)
    else if c = '.' then some (last :: c :: rest)
    else none

/-- Drops the zeros that a text starts with. The text has to start with a digit. -/
def dropLeadingZeros : Text → Option Text
  | [] => none
  | c :: rest =>
    if c = '0' then dropZerosAfter c rest else if c.isDigit then some (c :: rest) else none

/-- Drops a point that has zeros behind it, and nothing else. -/
def dropZeroFraction (t : Text) : Text :=
  match t.cut? '.' with
  | some (whole, zeros) =>
    if !zeros.isEmpty && zeros.all fun c : CodePoint => c = '0' then whole else t
  | none => t

/-- Drops underscores that stand alone between other code points. -/
def dropUnderscores (t : Text) : Text :=
  let parts := t.split '_'
  if parts.any List.isEmpty then t else parts.flatten

/-- Whether a text starts with a minus sign, and what follows it. -/
def takeMinus (t : Text) : Bool × Text :=
  match Text.afterStart? "-" t with
  | some rest => (true, rest)
  | none => (false, t)

/-- Whether a text holds digits alone, with no zero in front of others. -/
def isPlainNumeral : Text → Bool
  | [] => false
  | [c] => c.isDigit
  | c :: rest => c ≠ '0' && (c :: rest).all CodePoint.isDigit

/-- The number that a text writes: whether it is negative, and its digits. A minus sign stands in
front of all leading zeros or behind them, but not both. -/
def numeral? (t : Text) : Option (Bool × Text) := do
  let t := trim t
  let (before, t) := takeMinus t
  let t := if before then t else (Text.afterStart? "+" t).getD t
  let (behind, digits) := takeMinus (dropUnderscores (dropZeroFraction (← dropLeadingZeros t)))
  if isPlainNumeral digits && !(before && behind) then some (before || behind, digits) else none

/-- The integer that a text writes, in at most so many digits with its minus sign among them. -/
def intOfText (t : Text) : Checked Int :=
  match numeral? t with
  | none => .fault .unreadableInt
  | some (negative, digits) =>
    let size := if negative then digits.length + 1 else digits.length
    if maxIntegerDigits < size then .fault .intTooLong
    else .ok (if negative then -Decimal.natOfDigits digits else Decimal.natOfDigits digits)

def int : Check Int
  | .int n => .ok n
  | .bool b => .ok (if b then 1 else 0)
  | .float x => intOfFloat x
  | .text t => ofCharacters intOfText t
  | _ => .fault .notInt

/-- An integer from 0 on. -/
def nat : Check Nat := fun value =>
  (int value).andThen fun n => if n < 0 then .fault .negativeInt else .ok n.toNat

def testClass : Check TestClass
  | .testClass c => .ok c
  | _ => .fault .notClass

end Check

end PropertyLayers
