import PropertyLayers.Declaration.Basic
import PropertyLayers.Location.Canonical
import PropertyLayers.Resource.Loader

/-!
# Folding a level

The declarations of a level are taken by descending distance, so that what stands closer to the
class comes later and wins. All have to agree on the class and on what is inherited. A level that
declares nothing has the default resource of its class as its one location. Where that is depends on
the packages that are known so far, and to look for it can make further ones known.
-/

namespace PropertyLayers

/-- What the declarations of a level come to. -/
structure FoldedLevel where
  declaring : TestClass
  index : Nat
  locations : List Text
  properties : List Text
  inheritLocations : Bool
  inheritProperties : Bool
deriving DecidableEq

namespace Level

/-- The declarations from the furthest to the closest; at one distance they keep their order. -/
def ordered (level : Level) : List Declaration :=
  level.declarations.mergeSort fun a b => b.distance ≤ a.distance

theorem ordered_perm (level : Level) : level.ordered.Perm level.declarations :=
  List.mergeSort_perm ..

theorem ordered_ne_nil (level : Level) : level.ordered ≠ [] := fun h =>
  level.nonempty (List.nil_perm.mp (h ▸ level.ordered_perm))

/-- The declaration that the others have to agree with. -/
def lead (level : Level) : Declaration := level.ordered.head level.ordered_ne_nil

/-- The first thing in which a declaration differs from the leading one. -/
def conflict? (lead d : Declaration) : Option Conflict :=
  if lead.declaring ≠ d.declaring then some (.declaringClass lead.declaring d.declaring)
  else if lead.inheritLocations ≠ d.inheritLocations then
    some (.inheritLocations lead.inheritLocations d.inheritLocations)
  else if lead.inheritProperties ≠ d.inheritProperties then
    some (.inheritProperties lead.inheritProperties d.inheritProperties)
  else none

def inconsistency? (level : Level) : Option Failure :=
  level.ordered.findSome? fun d =>
    (conflict? level.lead d).map fun conflict => .inconsistent conflict d.declaring level.index

/-- Whether no declaration of the level has locations or properties. -/
def isBlank (level : Level) : Bool := level.ordered.all fun d => d.isEmpty

/-- The location of the default resource of the class of a level. -/
def defaultLocation (level : Level) (suffix : Text) (known : List Text) : Text :=
  (level.lead.declaring.amid known).defaultLocation suffix

/-- The location of the default resource, if the level is consistent and needs it. -/
def defaultLocation? (level : Level) (suffix : Text) (known : List Text) : Option Text :=
  if level.inconsistency?.isNone && level.isBlank then some (level.defaultLocation suffix known)
  else none

/-- The packages that are known once the level is folded. -/
def knownAfter (loader : Loader) (suffix : Text) (known : List Text) (level : Level) : List Text :=
  known ++ (level.defaultLocation? suffix known).toList.flatMap loader.discovers

/-- Folds a level. The loader is asked for a default resource alone. -/
def fold (loader : Loader) (suffix : Text) (known : List Text) (level : Level) :
    Except Failure FoldedLevel :=
  match level.inconsistency? with
  | some failure => .error failure
  | none =>
    let folded : FoldedLevel :=
      { declaring := level.lead.declaring
        index := level.index
        locations := level.ordered.flatMap fun d => d.locations
        properties := level.ordered.flatMap fun d => d.properties
        inheritLocations := level.lead.inheritLocations
        inheritProperties := level.lead.inheritProperties }
    match level.defaultLocation? suffix known with
    | none => .ok folded
    | some location =>
      match loader.has location with
      | .error failure => .error failure
      | .ok true => .ok { folded with locations := [location] }
      | .ok false =>
        let expected := level.defaultLocation suffix (level.knownAfter loader suffix known)
        .error (.noDefaultResource level.lead.declaring expected)

end Level

end PropertyLayers
