import PropertyLayers.Declaration.Fold
import PropertyLayers.Declaration.Merged

/-!
# Merging levels

A level stands behind the levels of its ancestors, which it may cut off. It does so for locations
and for properties separately. Every level is folded first, also one that is cut off, and the
packages that become known on the way count for all locations.
-/

namespace PropertyLayers

namespace FoldedLevel

/-- The level once these packages are known. -/
def amid (packages : List Text) (level : FoldedLevel) : FoldedLevel :=
  { level with declaring := level.declaring.amid packages }

/-- The locations in canonical form, those of the furthest ancestor first. -/
def mergeLocations : List FoldedLevel → List Text
  | [] => []
  | level :: ancestors =>
    (if level.inheritLocations then mergeLocations ancestors else [])
      ++ level.locations.map level.declaring.canonical

def mergeProperties : List FoldedLevel → List Text
  | [] => []
  | level :: ancestors =>
    (if level.inheritProperties then mergeProperties ancestors else []) ++ level.properties

end FoldedLevel

namespace Level

/-- Folds levels one after the other. -/
def foldAll (loader : Loader) (suffix : Text) :
    List Text → List Level → Except Failure (List FoldedLevel)
  | _, [] => .ok []
  | known, level :: ancestors => do
    let folded ← level.fold loader suffix known
    let others ← foldAll loader suffix (level.knownAfter loader suffix known) ancestors
    return folded :: others

/-- The packages that are known once levels are folded one after the other. -/
def knownAfterAll (loader : Loader) (suffix : Text) (levels : List Level) : List Text :=
  levels.foldl (knownAfter loader suffix) []

end Level

/-- What declarations come to, in whatever order their levels are given. The first level that cannot
be folded is the failure. -/
def mergeDeclarations (loader : Loader) (suffix : Text) (declarations : List Declaration) :
    Except Failure MergedSources := do
  let levels := Declaration.levels declarations
  let folded ← Level.foldAll loader suffix [] levels
  let folded := folded.map (·.amid (Level.knownAfterAll loader suffix levels))
  return ⟨FoldedLevel.mergeLocations folded, FoldedLevel.mergeProperties folded⟩

/-- The default resources that the loader is asked for on the way through the levels. -/
def askedDefaults (loader : Loader) (suffix : Text) : List Text → List Level → List Text
  | _, [] => []
  | known, level :: ancestors =>
    (level.defaultLocation? suffix known).toList ++
      match level.fold loader suffix known with
      | .ok _ => askedDefaults loader suffix (level.knownAfter loader suffix known) ancestors
      | .error _ => []

end PropertyLayers
