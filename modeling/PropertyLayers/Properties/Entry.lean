import PropertyLayers.Properties.Escape
import PropertyLayers.Properties.Line

/-!
# One logical line

The key ends at the first spacing or separator that no backslash escapes. Spacing, at most one
separator and, after a separator, spacing again stand between the key and the value; the value is
the rest of the line.
-/

namespace PropertyLayers.Properties

/-- What a logical line says; `separated` tells whether a separator stands after the key. -/
structure Entry where
  key : Text
  value : Text
  separated : Bool
deriving DecidableEq

/-- The raw key and what follows it. -/
def takeKey : Text → Text × Text
  | [] => ([], [])
  | c :: rest =>
    if c = '\\' then
      match rest with
      | [] => ([c], [])
      | e :: rest => let (key, after) := takeKey rest; (c :: e :: key, after)
    else if isSeparator c || isSpacing c then ([], c :: rest)
    else let (key, after) := takeKey rest; (c :: key, after)

/-- The raw value in what follows a raw key, and whether a separator stands before it. -/
def takeValue (after : Text) : Text × Bool :=
  match dropSpacing after with
  | [] => ([], false)
  | c :: rest => if isSeparator c then (dropSpacing rest, true) else (c :: rest, false)

/-- Whether a separator stands anywhere in the line without a backslash before it. -/
def hasBareSeparator : Text → Bool
  | [] => false
  | c :: rest =>
    if c = '\\' then
      match rest with
      | [] => false
      | _ :: rest => hasBareSeparator rest
    else isSeparator c || hasBareSeparator rest

/-- Reads a logical line. The key is decoded before the value. -/
def readLine (line : Text) : Except BadEscape Entry := do
  let (rawKey, after) := takeKey line
  let (rawValue, separated) := takeValue after
  let key ← unescape rawKey
  let value ← unescape rawValue
  return { key, value, separated }

end PropertyLayers.Properties
