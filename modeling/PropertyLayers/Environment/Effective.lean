import PropertyLayers.Environment.Basic

/-!
# Effective properties

What an environment gives for each of its keys, and the source whose value that is.
-/

namespace PropertyLayers

structure EffectiveProperty where
  key : Text
  value : Text
  source : Text
deriving DecidableEq

namespace Environment

/-- The first source that holds the key. -/
def holder? (env : Environment) (key : Text) : Option Source :=
  env.sources.find? fun s => s.properties.contains key

def effective? (env : Environment) (key : Text) :
    Except UnexpandedPlaceholder (Option EffectiveProperty) := do
  match env.holder? key, ← env.property? key with
  | some source, some value => return some { key, value, source := source.name }
  | _, _ => return none

/-- The effective properties, in the order of the keys of all sources from the lowest up. -/
def effective (env : Environment) : Except UnexpandedPlaceholder (List EffectiveProperty) := do
  return (← env.asMap.keys.mapM env.effective?).reduceOption

end Environment

end PropertyLayers
