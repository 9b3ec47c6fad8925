import PropertyLayers.Text.Basic

/-!
# Dates and times

Days of the calendar, times of a day, and both together with or without an offset from UTC.
-/

namespace PropertyLayers

structure Date where
  year : Nat
  month : Nat
  day : Nat
deriving DecidableEq

structure Time where
  hour : Nat
  minute : Nat
  second : Nat
  microsecond : Nat
deriving DecidableEq

/-- The offset is in minutes east of UTC. -/
inductive Moment where
  | date (date : Date)
  | time (time : Time)
  | dateTime (date : Date) (time : Time) (offset : Option Int)
deriving DecidableEq

/-- The number in decimal digits, at least `width` of them. -/
def Text.padded (width n : Nat) : Text :=
  let digits := Nat.toDigits 10 n
  (List.replicate (width - digits.length) '0' ++ digits).map CodePoint.ofChar

namespace Date

def daysInMonth (year month : Nat) : Nat :=
  if month = 2 then
    if year % 4 = 0 ∧ (year % 100 ≠ 0 ∨ year % 400 = 0) then 29 else 28
  else if month = 4 ∨ month = 6 ∨ month = 9 ∨ month = 11 then 30
  else 31

/-- A day of the calendar, which starts with the year 1. -/
def isValid (d : Date) : Bool :=
  1 ≤ d.year && 1 ≤ d.month && d.month ≤ 12 && 1 ≤ d.day && d.day ≤ daysInMonth d.year d.month

def toText (d : Date) : Text :=
  Text.padded 4 d.year ++ "-" ++ Text.padded 2 d.month ++ "-" ++ Text.padded 2 d.day

end Date

/-- Microseconds are written where there are any. -/
def Time.toText (t : Time) : Text :=
  let minutes := Text.padded 2 t.hour ++ ":" ++ Text.padded 2 t.minute
  let seconds := minutes ++ ":" ++ Text.padded 2 t.second
  if t.microsecond = 0 then seconds else seconds ++ "." ++ Text.padded 6 t.microsecond

def offsetText (minutes : Int) : Text :=
  let sign : Text := if minutes < 0 then "-" else "+"
  sign ++ Text.padded 2 (minutes.natAbs / 60) ++ ":" ++ Text.padded 2 (minutes.natAbs % 60)

namespace Moment

def toText : Moment → Text
  | .date d => d.toText
  | .time t => t.toText
  | .dateTime d t none => d.toText ++ " " ++ t.toText
  | .dateTime d t (some minutes) => d.toText ++ " " ++ t.toText ++ offsetText minutes

def call (name : String) (arguments : List Text) : Text :=
  Text.ofString name ++ "(" ++ Text.join ", " arguments ++ ")"

def dateFields (d : Date) : List Text := [Text.ofNat d.year, Text.ofNat d.month, Text.ofNat d.day]

/-- Hour and minute, then seconds and microseconds as far as they are not zero. -/
def timeFields (t : Time) : List Text :=
  [Text.ofNat t.hour, Text.ofNat t.minute] ++
    if t.microsecond ≠ 0 then [Text.ofNat t.second, Text.ofNat t.microsecond]
    else if t.second ≠ 0 then [Text.ofNat t.second] else []

/-- An offset as days, where it is negative, and seconds of a day. -/
def offsetField (minutes : Int) : Text :=
  if minutes = 0 then "tzinfo=datetime.timezone.utc"
  else
    let seconds := minutes * 60
    let delta := if seconds < 0
      then call "datetime.timedelta" ["days=-1", "seconds=" ++ Text.ofInt (seconds + 86400)]
      else call "datetime.timedelta" ["seconds=" ++ Text.ofInt seconds]
    "tzinfo=" ++ call "datetime.timezone" [delta]

/-- The moment as a constructor call, which is how it stands inside a list. -/
def literal : Moment → Text
  | .date d => call "datetime.date" (dateFields d)
  | .time t => call "datetime.time" (timeFields t)
  | .dateTime d t offset =>
    call "datetime.datetime" (dateFields d ++ timeFields t ++ (offset.map offsetField).toList)

def kind : Moment → Text
  | .date _ => "date"
  | .time _ => "time"
  | .dateTime .. => "datetime"

end Moment

end PropertyLayers
