import PropertyLayers.PropertyMap
import PropertyLayers.Value

/-!
# Tables as properties

An entry of an inner table has the keys on the way to it, joined by points, as its key. A list is
one property, its items joined by commas.
-/

namespace PropertyLayers.Toml

def listText? (items : List Value) : Option Text :=
  (items.mapM Value.propertyText?).map (Text.join ",")

/-- The entries of a table laid over the properties so far; `lead` stands before each key. Nothing
if an integer is too long to be written. -/
def flattenOver (lead : Text) (flat : PropertyMap) : Table → Option PropertyMap
  | [] => some flat
  | (key, .table inner) :: rest => do
    let inner ← flattenOver (lead ++ key ++ ".") ∅ inner
    flattenOver lead (flat.update inner) rest
  | (key, .list items) :: rest => do
    flattenOver lead (flat.insert (lead ++ key) (← listText? items)) rest
  | (key, value) :: rest => do
    flattenOver lead (flat.insert (lead ++ key) (← value.propertyText?)) rest

def flatten (t : Table) : Option PropertyMap := flattenOver [] ∅ t

end PropertyLayers.Toml
