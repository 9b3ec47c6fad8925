import PropertyLayers.Toml.Namespace
import PropertyLayers.Toml.Scalar

/-!
# TOML documents

A document is read statement by statement into a table. The readers that call themselves take fuel,
of which the length of the text leaves more than they need: each step takes a code point.
-/

namespace PropertyLayers.Toml

namespace Reader

def keyPart : Reader Text := do
  match ← peek? with
  | none => fail
  | some c =>
    if isBareKey c then takeWhile isBareKey
    else if c = apostrophe then literalString
    else basicString

/-- The parts of a key, between which stand points. -/
def keyParts : Nat → Reader KeyPath
  | 0 => fail
  | fuel + 1 => do
    let part ← keyPart
    skipBlanks
    if ← accept "." then
      skipBlanks
      return part :: (← keyParts fuel)
    else return [part]

def key : Reader KeyPath := do keyParts ((← get).length + 1)

/-- Blanks, line ends and comments inside a list. -/
def skipFiller : Nat → Reader Unit
  | 0 => return
  | fuel + 1 => do
    let _ ← takeWhile isBlankOrNewline
    if (← peek?) = some (CodePoint.ofChar '#') then
      skipComment
      skipFiller fuel

def filler : Reader Unit := do skipFiller ((← get).length + 1)

/-- A key, an equals sign and the blanks after it. -/
def assignedKey : Reader KeyPath := do
  let path ← key
  expect "="
  skipBlanks
  return path

mutual

def valueWith : Nat → Reader Value
  | 0 => fail
  | fuel + 1 => do
    let next ← peek?
    if next = some quote || next = some apostrophe then return .text (← anyString)
    else if ← accept "true" then return .bool true
    else if ← accept "false" then return .bool false
    else if ← accept "[" then
      filler
      if ← accept "]" then return .list []
      return .list (← itemsWith fuel)
    else if ← accept "\x7b" then
      skipBlanks
      if ← accept "\x7d" then return .table []
      return .table (← entriesWith fuel [] .none)
    else numeric

/-- The items of a list up to its closing bracket. -/
def itemsWith : Nat → Reader (List Value)
  | 0 => fail
  | fuel + 1 => do
    let item ← valueWith fuel
    filler
    if ← accept "]" then return [item]
    expect ","
    filler
    if ← accept "]" then return [item]
    return item :: (← itemsWith fuel)

/-- The entries of an inline table up to its closing brace. -/
def entriesWith : Nat → Table → Reserved → Reader Table
  | 0, _, _ => fail
  | fuel + 1, t, reserved => do
    let path ← assignedKey
    let value ← valueWith fuel
    if reserved.isFrozen path then fail
    let last ← ofOption path.getLast?
    let t ← ofOption (changeAt false (addEntry last value) path.dropLast t)
    skipBlanks
    if ← accept "\x7d" then return t
    expect ","
    skipBlanks
    entriesWith fuel t (if Draft.isNested value then reserved.freeze path else reserved)

end

def value : Reader Value := do valueWith (2 * (← get).length + 2)

def entry (d : Draft) : Reader Draft := do
  let path ← assignedKey
  let value ← value
  let d ← ofOption (d.assign path value)
  skipBlanks
  return d

def header (d : Draft) : Reader Draft := do
  let d := { d with reserved := d.reserved.settle }
  let double ← accept "[["
  if !double then expect "["
  skipBlanks
  let path ← key
  let d ← ofOption (if double then d.openItem path else d.openTable path)
  expect (if double then "]]" else "]")
  skipBlanks
  return d

def statement (d : Draft) (next : CodePoint) : Reader Draft :=
  if isBareKey next || next = quote || next = apostrophe then entry d
  else if next = '[' then header d
  else if next = '#' then return d
  else fail

def statements : Nat → Draft → Reader Draft
  | 0, _ => fail
  | fuel + 1, d => do
    skipBlanks
    match ← peek? with
    | none => return d
    | some next =>
      if ← accept "\n" then statements fuel d
      else
        let d ← statement d next
        skipComment
        if ← accept "\n" then statements fuel d
        else if (← peek?).isNone then return d
        else fail

end Reader

/-- Line ends of CR LF become LF. -/
def unifyLineEnds : Text → Text
  | [] => []
  | c :: rest =>
    if c = '\r' && rest.head? = some (CodePoint.ofChar '\n') then unifyLineEnds rest
    else c :: unifyLineEnds rest

/-- The table that a document writes. -/
def readDocument (text : Text) : Except Fault Table :=
  let text := unifyLineEnds text
  (Reader.statements (text.length + 1) .empty text).map fun (d, _) => d.root

end PropertyLayers.Toml
