import PropertyLayers.Declaration.Merged
import PropertyLayers.Environment.Basic
import PropertyLayers.Resource.Load

/-!
# Applying sources to an environment

The locations of one application are staged first: each is resolved with the sources staged before
it laid over the environment, and nothing is added before all of them have loaded. Then they are
added in order, each on top, so the last one has the highest precedence. Inline entries
share one source, which keeps its place once it is there.
-/

namespace PropertyLayers

/-- The resolved locations that the loader was asked for, and what came of it. -/
structure Staging where
  asked : List Text
  outcome : Except Failure (List Source)

/-- The environment after an application, the locations that were asked for on the way, and why the
application stopped, if it did. -/
structure Applied where
  environment : Environment
  asked : List Text
  failure? : Option Failure

namespace Environment

/-- The name of the source that holds inline entries. -/
def inlinedName : Text := "Inlined Test Properties"

/-- Where a location is looked for: the sources staged so far, the last one first, and then the
environment. -/
def stagedScope (env : Environment) (staged : List Source) : Scope :=
  staged.reverse.map Source.properties ++ env.scope

/-- A location with its placeholders expanded, first those that have a value in the staged scope and
then what is left over the environment alone. -/
def resolveLocation (env : Environment) (staged : List Source) (location : Text) :
    Except UnexpandedPlaceholder Text := do
  let text ← expand (env.stagedScope staged) true [] location
  env.resolve text

/-- Loads the sources at the locations behind those that are staged already. -/
def stage (env : Environment) (loader : Loader) (encoding : Text) :
    List Source → List Text → Staging
  | staged, [] => ⟨[], .ok staged⟩
  | staged, location :: rest =>
    match env.resolveLocation staged location with
    | .error placeholder => ⟨[], .error (.unexpanded placeholder)⟩
    | .ok name =>
      match loader.source name encoding with
      | .error failure => ⟨[name], .error failure⟩
      | .ok source =>
        let later := stage env loader encoding (staged ++ [source]) rest
        { later with asked := name :: later.asked }

def addAllHighest (env : Environment) (sources : List Source) : Environment :=
  sources.foldl addHighest env

def applyLocations (env : Environment) (loader : Loader) (encoding : Text)
    (locations : List Text) : Applied :=
  let staging := env.stage loader encoding [] locations
  match staging.outcome with
  | .ok sources => ⟨env.addAllHighest sources, staging.asked, none⟩
  | .error failure => ⟨env, staging.asked, some failure⟩

/-- Lays properties over those of the inlined source, which is made at the top if there is none. -/
def overlayInlined (env : Environment) (properties : PropertyMap) : Environment :=
  match env.get? inlinedName with
  | none => env.addHighest ⟨inlinedName, properties⟩
  | some _ => env.modify inlinedName (·.update properties)

def applyInlined (env : Environment) (entries : List Text) : Applied :=
  if entries.isEmpty then ⟨env, [], none⟩
  else match Properties.readEntries entries with
    | .ok properties => ⟨env.overlayInlined properties, [], none⟩
    | .error malformed => ⟨env, [], some (.malformedEntry malformed)⟩

/-- Applies the locations and, if they load, the inline entries. -/
def applyMerged (env : Environment) (loader : Loader) (encoding : Text) (merged : MergedSources) :
    Applied :=
  let located := env.applyLocations loader encoding merged.locations
  match located.failure? with
  | some _ => located
  | none => { located.environment.applyInlined merged.properties with asked := located.asked }

end Environment

end PropertyLayers
