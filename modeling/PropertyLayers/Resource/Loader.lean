import PropertyLayers.Failure
import PropertyLayers.Resource.Encoding

/-!
# Loaders

A loader says whether there is a resource at a location, and gives its content. A look at a location
can make packages known, whatever comes of it.
-/

namespace PropertyLayers

/-- The answers of a loader are functions of the location: asked again, it answers as before. Its
contents are decoded by the codecs that are registered where it runs. -/
structure Loader where
  has : Text → Except Failure Bool
  load : Text → Except Failure Bytes
  /-- The packages that a look at a location makes known. -/
  discovers : Text → List Text
  codecs : Codecs := .builtIn

namespace Loader

/-- Finds the content of a location in a list. -/
def ofEntries (entries : List (Text × Bytes)) : Loader where
  has location := .ok (Keyed.find? location entries).isSome
  load location :=
    match Keyed.find? location entries with
    | some content => .ok content
    | none => .error (.unloadable location .missing)
  discovers _ := []

end Loader

end PropertyLayers
