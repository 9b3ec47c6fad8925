import PropertyLayers.Environment.Application

/-!
# Environments with shared mappings

A source keeps the mapping that it is made with, so two sources can have one mapping, and what is
written into the one is then written into the other. Here an environment holds for each of its
sources the place of its mapping. What is read is read of the sources with the properties at their
places (`environment`). What is loaded or made anew goes to a place that no source has (`fresh`).
-/

namespace PropertyLayers

structure Holder where
  name : Text
  place : Nat
deriving DecidableEq

structure SharedEnvironment where
  holders : List Holder
  mappings : Nat → PropertyMap
  lenient : Bool

/-- What comes of an application, as in `Applied`. -/
structure SharedApplied where
  environment : SharedEnvironment
  asked : List Text
  failure? : Option Failure

namespace SharedEnvironment

def source (env : SharedEnvironment) (holder : Holder) : Source :=
  ⟨holder.name, env.mappings holder.place⟩

/-- The environment as it is read. -/
def environment (env : SharedEnvironment) : Environment :=
  ⟨env.holders.map env.source, env.lenient⟩

def ofHolders (holders : List Holder) (mappings : Nat → PropertyMap) (lenient : Bool) :
    Except DuplicateName SharedEnvironment := do
  let env : SharedEnvironment := ⟨holders, mappings, lenient⟩
  let _ ← Environment.ofSources env.environment.sources lenient
  return env

def get? (env : SharedEnvironment) (name : Text) : Option Holder :=
  env.holders.find? fun h => h.name = name

def names (env : SharedEnvironment) : List Text := env.holders.map Holder.name

def places (env : SharedEnvironment) : List Nat := env.holders.map Holder.place

/-- A place that no source has. -/
def fresh (env : SharedEnvironment) : Nat := env.places.foldr max 0 + 1

/-- Without the first source that equals, name and properties, the one held under the name. -/
def remove (env : SharedEnvironment) (name : Text) : SharedEnvironment :=
  match env.get? name with
  | some holder =>
    { env with holders := env.holders.eraseP fun h => env.source h = env.source holder }
  | none => env

def addHighest (env : SharedEnvironment) (holder : Holder) : SharedEnvironment :=
  let env := env.remove holder.name
  { env with holders := holder :: env.holders }

def addLowest (env : SharedEnvironment) (holder : Holder) : SharedEnvironment :=
  let env := env.remove holder.name
  { env with holders := env.holders ++ [holder] }

/-- Puts properties at a place, for every source that has it. -/
def writeAt (env : SharedEnvironment) (place : Nat) (properties : PropertyMap) :
    SharedEnvironment :=
  { env with mappings := fun p => if p = place then properties else env.mappings p }

/-- Adds a source with a mapping of its own. -/
def addOwnHighest (env : SharedEnvironment) (source : Source) : SharedEnvironment :=
  (env.writeAt env.fresh source.properties).addHighest ⟨source.name, env.fresh⟩

def addOwnLowest (env : SharedEnvironment) (source : Source) : SharedEnvironment :=
  (env.writeAt env.fresh source.properties).addLowest ⟨source.name, env.fresh⟩

/-- Changes the mapping of the source held under the name. -/
def modify (env : SharedEnvironment) (name : Text) (change : PropertyMap → PropertyMap) :
    SharedEnvironment :=
  match env.get? name with
  | some holder => env.writeAt holder.place (change (env.mappings holder.place))
  | none => env

def addAllHighest (env : SharedEnvironment) (sources : List Source) : SharedEnvironment :=
  sources.foldl addOwnHighest env

def applyLocations (env : SharedEnvironment) (loader : Loader) (encoding : Text)
    (locations : List Text) : SharedApplied :=
  let staging := env.environment.stage loader encoding [] locations
  match staging.outcome with
  | .ok sources => ⟨env.addAllHighest sources, staging.asked, none⟩
  | .error failure => ⟨env, staging.asked, some failure⟩

def overlayInlined (env : SharedEnvironment) (properties : PropertyMap) : SharedEnvironment :=
  match env.get? Environment.inlinedName with
  | none => env.addOwnHighest ⟨Environment.inlinedName, properties⟩
  | some _ => env.modify Environment.inlinedName (·.update properties)

def applyInlined (env : SharedEnvironment) (entries : List Text) : SharedApplied :=
  if entries.isEmpty then ⟨env, [], none⟩
  else match Properties.readEntries entries with
    | .ok properties => ⟨env.overlayInlined properties, [], none⟩
    | .error malformed => ⟨env, [], some (.malformedEntry malformed)⟩

def applyMerged (env : SharedEnvironment) (loader : Loader) (encoding : Text)
    (merged : MergedSources) : SharedApplied :=
  let located := env.applyLocations loader encoding merged.locations
  match located.failure? with
  | some _ => located
  | none => { located.environment.applyInlined merged.properties with asked := located.asked }

end SharedEnvironment

/-- What comes of an application as it is read. -/
def SharedApplied.applied (a : SharedApplied) : Applied :=
  ⟨a.environment.environment, a.asked, a.failure?⟩

end PropertyLayers
