import PropertyLayers.PropertyMap
import PropertyLayers.Properties.Entry
import PropertyLayers.Text.Blank

/-!
# Inline entries

An inline entry is a text with exactly one logical line that has a key and a bare separator.
Blank entries are passed over. The first entry that is not of this form is the failure.
-/

namespace PropertyLayers.Properties

inductive EntryFault where
  | count (lines : Nat)
  | badEscape (escape : BadEscape)
  | noSeparator
  | emptyKey
deriving DecidableEq

def EntryFault.message : EntryFault → Text
  | .count lines => "found " ++ Text.ofNat lines ++ " properties"
  | .badEscape escape => escape.message
  | .noSeparator => "missing '=' or ':' separator"
  | .emptyKey => "empty key"

structure MalformedEntry where
  entry : Text
  fault : EntryFault
deriving DecidableEq

/-- The single property of an entry. -/
def readEntry (entry : Text) : Except EntryFault (Text × Text) :=
  match logicalLines entry with
  | [line] =>
    match readLine line with
    | .error escape => .error (.badEscape escape)
    | .ok read =>
      if !hasBareSeparator line then .error .noSeparator
      else if read.key.isEmpty then .error .emptyKey
      else .ok (read.key, read.value)
  | lines => .error (.count lines.length)

def addEntry (m : PropertyMap) (entry : Text) : Except MalformedEntry PropertyMap :=
  if entry.isBlank then .ok m
  else match readEntry entry with
    | .ok (key, value) => .ok (m.insert key value)
    | .error fault => .error { entry, fault }

def readEntries (entries : List Text) : Except MalformedEntry PropertyMap :=
  entries.foldlM addEntry ∅

end PropertyLayers.Properties
