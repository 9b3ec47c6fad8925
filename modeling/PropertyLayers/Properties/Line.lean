import PropertyLayers.Text.Basic

/-!
# Lines of a properties text

Physical lines end at CR LF, CR or LF and nowhere else. A logical line starts at a physical line
that is neither empty nor a comment, and runs on while it ends in an odd number of backslashes,
the last of which is dropped; the spacing at the start of each joined line is dropped too.
-/

namespace PropertyLayers.Properties

/-- The white space of the grammar: space, tab and form feed. -/
def isSpacing (c : CodePoint) : Bool := c = ' ' || c = '\t' || c = '\x0c'

def isSeparator (c : CodePoint) : Bool := c = '=' || c = ':'

def dropSpacing (line : Text) : Text := line.dropWhile isSpacing

/-- Puts a code point in front of the first line. -/
def extendFirst (c : CodePoint) : List Text → List Text
  | [] => [[c]]
  | line :: lines => (c :: line) :: lines

/-- The physical lines, where `afterReturn` says that a CR has just ended one. -/
def physicalLinesFrom (afterReturn : Bool) : Text → List Text
  | [] => [[]]
  | c :: rest =>
    if c = '\n' then
      if afterReturn then physicalLinesFrom false rest else [] :: physicalLinesFrom false rest
    else if c = '\r' then [] :: physicalLinesFrom true rest
    else extendFirst c (physicalLinesFrom false rest)

def physicalLines (text : Text) : List Text := physicalLinesFrom false text

/-- How many backslashes the line ends in. -/
def trailingBackslashes (line : Text) : Nat :=
  (line.reverse.takeWhile fun c : CodePoint => c = '\\').length

/-- An odd number of backslashes at the end asks for the next line. -/
def endsOpen (line : Text) : Bool := trailingBackslashes line % 2 = 1

/-- Empty once its leading spacing is dropped, or a comment. -/
def isIgnored : Text → Bool
  | [] => true
  | c :: _ => c = '#' || c = '!'

/-- Joins physical lines, where `pending` is what has been read of the logical line so far. A line
that is pending at the end of the text is complete. -/
def joinLines : Option Text → List Text → List Text
  | none, [] => []
  | some line, [] => [line]
  | pending, raw :: rest =>
    let line := pending.getD [] ++ dropSpacing raw
    if pending.isNone && isIgnored line then joinLines none rest
    else if endsOpen line then joinLines (some line.dropLast) rest
    else line :: joinLines none rest

def logicalLines (text : Text) : List Text := joinLines none (physicalLines text)

end PropertyLayers.Properties
