import PropertyLayers.Text.Basic

/-!
# Reading TOML: characters

Readers take what they read from the front of the text that is left.
-/

namespace PropertyLayers.Toml

/-- Why a text is no TOML document that can be read: its syntax, or a decimal integer of this many
digits. -/
inductive Fault where
  | syntaxError
  | longNumeral (digits : Nat)
deriving DecidableEq

abbrev Reader := StateT Text (Except Fault)

def isBlank (c : CodePoint) : Bool := c = ' ' || c = '\t'

def isBlankOrNewline (c : CodePoint) : Bool := isBlank c || c = '\n'

/-- Control characters, of which a text may hold the tab. -/
def isControl (c : CodePoint) : Bool := (c.val < 32 || c.val = 127) && c ≠ '\t'

def isBareKey (c : CodePoint) : Bool := c.isLetter || c.isDigit || c = '-' || c = '_'

namespace Reader

def fail {α : Type} : Reader α := throw .syntaxError

def peek? : Reader (Option CodePoint) := return (← get).head?

/-- Takes the code points that the class holds. -/
def takeWhile (p : CodePoint → Bool) : Reader Text := do
  let s ← get
  set (s.dropWhile p)
  return s.takeWhile p

def skipBlanks : Reader Unit := do
  let _ ← takeWhile isBlank

/-- Takes the word if it stands next. -/
def accept (word : Text) : Reader Bool := do
  match Text.afterStart? word (← get) with
  | some rest => set rest; return true
  | none => return false

def expect (word : Text) : Reader Unit := do
  if !(← accept word) then fail

/-- A comment ends before the line does. -/
def skipComment : Reader Unit := do
  if ← accept "#" then
    let comment ← takeWhile fun c => c ≠ '\n'
    if comment.any isControl then fail

end Reader

end PropertyLayers.Toml
