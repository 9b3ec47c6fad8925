import PropertyLayers.PropertyMap

/-!
# JSON reports

Reports are written with two blanks for each level, one entry a line, and an empty list or object on
one line. Only quotes, backslashes and control characters are escaped. A text with a surrogate
cannot be written, but as the name of a field it stands with replacement characters.
-/

namespace PropertyLayers

inductive Json where
  | null
  | text (t : Text)
  | list (items : List Json)
  | object (fields : List (Text × Json))

namespace Json

def escapedCodePoint (c : CodePoint) : Text :=
  if c = '\x22' then "\\\x22"
  else if c = '\\' then "\\\\"
  else if c = '\n' then "\\n"
  else if c = '\r' then "\\r"
  else if c = '\t' then "\\t"
  else if c = '\x08' then "\\b"
  else if c = '\x0c' then "\\f"
  else if c.val < 0x20 then "\\u" ++ Text.hex 4 c.val
  else [c]

def quoteMark : Text := "\x22"

def quote (t : Text) : Text := quoteMark ++ t.flatMap escapedCodePoint ++ quoteMark

def quotedText? (t : Text) : Option Text :=
  if t.hasSurrogate then none else some (quote t)

/-- A surrogate would take three bytes, and each of them is replaced on its own. -/
def replaceSurrogate (c : CodePoint) : Text :=
  if c.isSurrogate then List.replicate 3 (CodePoint.ofNat 0xFFFD) else [c]

def fieldName (t : Text) : Text := quote (t.flatMap replaceSurrogate)

def newLine (depth : Nat) : Text := CodePoint.ofChar '\n' :: List.replicate (2 * depth) (' ' : Char)

/-- Entries between an opening and a closing mark, at a depth. -/
def enclose (opening closing : Text) (depth : Nat) : List Text → Text
  | [] => opening ++ closing
  | entries =>
    opening ++ newLine (depth + 1) ++ Text.join ("," ++ newLine (depth + 1)) entries
      ++ newLine depth ++ closing

mutual

def writeAt? (depth : Nat) : Json → Option Text
  | .null => some "null"
  | .text t => quotedText? t
  | .list items => (writeItems? (depth + 1) items).map (enclose "[" "]" depth)
  | .object fields => (writeFields? (depth + 1) fields).map (enclose "\x7b" "\x7d" depth)

def writeItems? (depth : Nat) : List Json → Option (List Text)
  | [] => some []
  | item :: rest => do return (← writeAt? depth item) :: (← writeItems? depth rest)

def writeFields? (depth : Nat) : List (Text × Json) → Option (List Text)
  | [] => some []
  | (key, value) :: rest => do
    return (fieldName key ++ ": " ++ (← writeAt? depth value)) :: (← writeFields? depth rest)

end

def write? (json : Json) : Option Text := writeAt? 0 json

def ofMap (m : PropertyMap) : Json := .object (m.entries.map fun (key, value) => (key, .text value))

end Json

end PropertyLayers
