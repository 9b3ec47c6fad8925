import PropertyLayers.Toml.Reader

/-!
# Reading TOML: strings

Basic strings have escapes, literal strings have none; both may run over several lines between
triple quotes, where a line break right after the opening is dropped and up to two quotes may stand
before the closing.
-/

namespace PropertyLayers.Toml

def quote : CodePoint := '\x22'

def apostrophe : CodePoint := '\x27'

/-- The code point of an escape by number, unless it is a surrogate or too large. -/
def numbered? (digits : Text) : Option CodePoint :=
  match digits.hexValue? with
  | some n => if n < 0xD800 || 0xDFFF < n && n < 0x110000 then some (.ofNat n) else none
  | none => none

def shortEscape? (c : CodePoint) : Option CodePoint :=
  if c = 'b' then some '\x08'
  else if c = 't' then some '\t'
  else if c = 'n' then some '\n'
  else if c = 'f' then some '\x0c'
  else if c = 'r' then some '\r'
  else if c = quote || c = '\\' then some c
  else none

/-- Where the reading of a basic string stands: at a character; after a backslash, on blanks that a
line break has to follow; on the white space after that line break. -/
inductive Place where
  | text
  | lineEnd
  | folded
deriving DecidableEq

/-- The rest of a basic string and what follows its closing quotes. -/
def basicBody (multiline : Bool) (place : Place) : Text → Option (Text × Text)
  | [] => none
  | c :: rest =>
    let place := if place = .folded && !isBlankOrNewline c then .text else place
    let keep (c : CodePoint) (rest : Option (Text × Text)) :=
      rest.map fun (body, after) => (c :: body, after)
    if place = .folded then basicBody multiline .folded rest
    else if place = .lineEnd then
      if c = '\n' then basicBody multiline .folded rest
      else if isBlank c then basicBody multiline .lineEnd rest
      else none
    else if c = quote then
      if !multiline then some ([], rest)
      else match Text.afterStart? [quote, quote] rest with
        | some after => some ([], after)
        | none => keep c (basicBody multiline .text rest)
    else if c = '\\' then
      match rest with
      | [] => none
      | e :: rest =>
        if multiline && e = '\n' then basicBody multiline .folded rest
        else if multiline && isBlank e then basicBody multiline .lineEnd rest
        else if e = 'u' then
          match rest with
          | a :: b :: c :: d :: rest =>
            match numbered? [a, b, c, d] with
            | some n => keep n (basicBody multiline .text rest)
            | none => none
          | _ => none
        else if e = 'U' then
          match rest with
          | a :: b :: c :: d :: e :: f :: g :: h :: rest =>
            match numbered? [a, b, c, d, e, f, g, h] with
            | some n => keep n (basicBody multiline .text rest)
            | none => none
          | _ => none
        else match shortEscape? e with
          | some n => keep n (basicBody multiline .text rest)
          | none => none
    else if isControl c && !(multiline && c = '\n') then none
    else keep c (basicBody multiline .text rest)

/-- The text before the closing and what follows it. -/
def literalBody (closing : Text) : Text → Option (Text × Text)
  | [] => none
  | c :: rest =>
    match Text.afterStart? closing (c :: rest) with
    | some after => some ([], after)
    | none => (literalBody closing rest).map fun (body, after) => (c :: body, after)

namespace Reader

def ofOption {α : Type} : Option α → Reader α
  | some a => return a
  | none => fail

def body (read : Text → Option (Text × Text)) : Reader Text := do
  let (body, after) ← ofOption (read (← get))
  set after
  return body

/-- Up to two quotes that stand before the closing ones of a string over several lines. -/
def extraQuotes (mark : CodePoint) : Reader Text := do
  if ← accept [mark] then
    if ← accept [mark] then return [mark, mark] else return [mark]
  else return []

def basicString : Reader Text := do
  expect [quote]
  body (basicBody false .text)

def literalString : Reader Text := do
  expect [apostrophe]
  let body ← body (literalBody [apostrophe])
  if body.any isControl then fail else return body

def anyString : Reader Text := do
  if ← accept [quote, quote, quote] then
    let _ ← accept "\n"
    return (← body (basicBody true .text)) ++ (← extraQuotes quote)
  else if ← accept [apostrophe, apostrophe, apostrophe] then
    let _ ← accept "\n"
    let body ← body (literalBody [apostrophe, apostrophe, apostrophe])
    if body.any fun c => isControl c && c ≠ '\n' then fail
    else return body ++ (← extraQuotes apostrophe)
  else if (← peek?) = some quote then basicString
  else literalString

end Reader

end PropertyLayers.Toml
