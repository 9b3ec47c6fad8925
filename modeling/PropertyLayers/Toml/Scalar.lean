import PropertyLayers.Number.Decimal
import PropertyLayers.Toml.Quotation
import PropertyLayers.Value

/-!
# Reading TOML: numbers, dates and times

A date or time is looked for before a number, since both start with digits. An integer in base 2, 8
or 16 has no sign; a decimal one has no leading zero.
-/

namespace PropertyLayers.Toml

/-- A run of digits with single underscores between them, and what follows it. -/
def digitRun (isDigit : CodePoint → Bool) : Text → Text × Text
  | [] => ([], [])
  | c :: rest =>
    if isDigit c then
      let (run, after) := digitRun isDigit rest
      (c :: run, after)
    else if c = '_' then
      match rest with
      | [] => ([], c :: rest)
      | d :: tail =>
        if isDigit d then
          let (run, after) := digitRun isDigit tail
          (c :: d :: run, after)
        else ([], c :: rest)
    else ([], c :: rest)

/-- A run that starts with a digit. -/
def digits? (isDigit : CodePoint → Bool) : Text → Option (Text × Text)
  | [] => none
  | c :: rest => if isDigit c then some (digitRun isDigit (c :: rest)) else none

def isBinaryDigit : CodePoint → Bool := CodePoint.between '0' '1'

def isOctalDigit : CodePoint → Bool := CodePoint.between '0' '7'

def isHexDigit (c : CodePoint) : Bool := c.hexDigit?.isSome

def natOfBase (base : Nat) (digits : Text) : Nat :=
  digits.foldl (fun n c => n * base + (c.hexDigit?).getD 0) 0

/-- An integer in base 2, 8 or 16. -/
def basedInteger? : Text → Option (Nat × Text)
  | a :: b :: rest =>
    if a = '0' then
      let read (base : Nat) (isDigit : CodePoint → Bool) : Option (Nat × Text) :=
        (digits? isDigit rest).map fun (run, after) =>
          (natOfBase base (Decimal.withoutUnderscores run), after)
      if b = 'x' then read 16 isHexDigit
      else if b = 'b' then read 2 isBinaryDigit
      else if b = 'o' then read 8 isOctalDigit
      else none
    else none
  | _ => none

/-- A sign, if one stands there, and what follows it. -/
def splitSign : Text → Text × Text
  | [] => ([], [])
  | c :: rest => if c = '+' || c = '-' then ([c], rest) else ([], c :: rest)

/-- The integral part of a decimal number: a zero alone, or a run that starts with another digit. -/
def wholePart? : Text → Option (Text × Text)
  | [] => none
  | c :: rest =>
    if c = '0' then some ([c], rest)
    else if c.isDigit then some (digitRun CodePoint.isDigit (c :: rest))
    else none

/-- A point with digits after it. -/
def fractionPart : Text → Text × Text
  | [] => ([], [])
  | c :: rest =>
    if c = '.' then
      match digits? CodePoint.isDigit rest with
      | some (run, after) => (c :: run, after)
      | none => ([], c :: rest)
    else ([], c :: rest)

/-- A power of ten. -/
def powerPart : Text → Text × Text
  | [] => ([], [])
  | c :: rest =>
    if c = 'e' || c = 'E' then
      let (sign, unsigned) := splitSign rest
      match digits? CodePoint.isDigit unsigned with
      | some (run, after) => (c :: sign ++ run, after)
      | none => ([], c :: rest)
    else ([], c :: rest)

/-- The sign, the integral part and the rest of the number, with what follows. -/
def decimalNumeral? (s : Text) : Option ((Text × Text × Text) × Text) :=
  let (sign, unsigned) := splitSign s
  (wholePart? unsigned).map fun (whole, rest) =>
    let (fraction, rest) := fractionPart rest
    let (power, rest) := powerPart rest
    ((sign, whole, fraction ++ power), rest)

def twoDigits? : Text → Option (Nat × Text)
  | a :: b :: rest =>
    if a.isDigit && b.isDigit then some (Decimal.natOfDigits [a, b], rest) else none
  | _ => none

/-- Two digits that make a number of the range. -/
def field? (low high : Nat) (s : Text) : Option (Nat × Text) :=
  (twoDigits? s).filter fun (n, _) => low ≤ n && n ≤ high

def after? (mark : CodePoint) : Text → Option Text
  | [] => none
  | c :: rest => if c = mark then some rest else none

/-- Fractions of a second, of which six digits count. -/
def microseconds (s : Text) : Nat × Text :=
  match after? '.' s with
  | some rest =>
    let run := rest.takeWhile CodePoint.isDigit
    if run.isEmpty then (0, s)
    else
      let six := (run ++ List.replicate 6 (CodePoint.ofChar '0')).take 6
      (Decimal.natOfDigits six, rest.dropWhile CodePoint.isDigit)
  | none => (0, s)

def time? (s : Text) : Option (Time × Text) := do
  let (hour, s) ← field? 0 23 s
  let (minute, s) ← field? 0 59 (← after? ':' s)
  let (second, s) ← field? 0 59 (← after? ':' s)
  let (microsecond, s) := microseconds s
  return ({ hour, minute, second, microsecond }, s)

def date? (s : Text) : Option (Date × Text) := do
  let (century, s) ← twoDigits? s
  let (year, s) ← twoDigits? s
  let (month, s) ← field? 1 12 (← after? '-' s)
  let (day, s) ← field? 1 31 (← after? '-' s)
  return ({ year := century * 100 + year, month, day }, s)

def numericOffset? (s : Text) : Option (Nat × Text) := do
  let (hours, s) ← field? 0 23 s
  let (minutes, s) ← field? 0 59 (← after? ':' s)
  return (hours * 60 + minutes, s)

/-- An offset from UTC, if one stands there. -/
def offset (s : Text) : Option Int × Text :=
  match s with
  | [] => (none, s)
  | c :: rest =>
    if c = 'Z' || c = 'z' then (some 0, rest)
    else if c = '+' || c = '-' then
      match numericOffset? rest with
      | some (minutes, after) =>
        (some (if c = '-' then -(minutes : Int) else minutes), after)
      | none => (none, s)
    else (none, s)

/-- A time after the date, set off by a `T` or a space. -/
def timeOfDay? (s : Text) : Option (Time × Text) :=
  match s with
  | [] => none
  | c :: rest => if c = 'T' || c = 't' || c = ' ' then time? rest else none

def moment? (s : Text) : Option (Moment × Text) :=
  match date? s with
  | some (date, rest) =>
    match timeOfDay? rest with
    | some (time, rest) =>
      let (offset, rest) := offset rest
      some (.dateTime date time offset, rest)
    | none => some (.date date, rest)
  | none => (time? s).map fun (time, rest) => (.time time, rest)

/-- Whether the date of the moment, if it has one, is in the calendar. -/
def isOnCalendar : Moment → Bool
  | .date date => date.isValid
  | .time _ => true
  | .dateTime date _ _ => date.isValid

/-- `inf` and `nan`, of any sign. -/
def specialFloat? (s : Text) : Option (Binary64 × Text) :=
  let (sign, unsigned) := splitSign s
  match Text.afterStart? "inf" unsigned with
  | some rest => some (.infinite (sign = "-"), rest)
  | none => (Text.afterStart? "nan" unsigned).map fun rest => (.nan, rest)

namespace Reader

def decimal (sign whole more : Text) : Reader Value := do
  if more.isEmpty then
    let digits := Decimal.withoutUnderscores whole
    if maxIntegerDigits < digits.length then throw (.longNumeral digits.length)
    return .int (Decimal.intOfDigits (sign ++ digits))
  else return .float (Decimal.ofText (sign ++ whole ++ more)).toBinary64

/-- A date, a time or a number. -/
def numeric : Reader Value := do
  let s ← get
  match moment? s with
  | some (moment, rest) =>
    set rest
    if isOnCalendar moment then return .moment moment else fail
  | none =>
    match basedInteger? s with
    | some (n, rest) => set rest; return .int n
    | none =>
      match decimalNumeral? s with
      | some ((sign, whole, more), rest) => set rest; decimal sign whole more
      | none =>
        let (x, rest) ← ofOption (specialFloat? s)
        set rest
        return .float x

end Reader

end PropertyLayers.Toml
