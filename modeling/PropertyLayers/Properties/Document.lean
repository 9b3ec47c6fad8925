import PropertyLayers.PropertyMap
import PropertyLayers.Properties.Entry

/-!
# Properties texts

A text gives the map of its logical lines, a later line overwriting the value of an earlier one.
A line without a separator is a key with what spacing sets off as its value, or with none.
-/

namespace PropertyLayers.Properties

def addLine (m : PropertyMap) (line : Text) : Except BadEscape PropertyMap :=
  (readLine line).map fun entry => m.insert entry.key entry.value

def readText (text : Text) : Except BadEscape PropertyMap :=
  (logicalLines text).foldlM addLine ∅

end PropertyLayers.Properties
