import PropertyLayers.Text.Basic

/-!
# Merged sources

What the declarations of a class and its ancestors come to. In both lists the furthest ancestor
stands first, so that what is applied later wins.
-/

namespace PropertyLayers

/-- Locations of resources, and inline entries. -/
structure MergedSources where
  locations : List Text
  properties : List Text
deriving DecidableEq

namespace MergedSources

def empty : MergedSources := ⟨[], []⟩

def isEmpty (m : MergedSources) : Bool := m.locations.isEmpty && m.properties.isEmpty

end MergedSources

end PropertyLayers
