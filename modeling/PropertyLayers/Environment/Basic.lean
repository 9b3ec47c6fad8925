import PropertyLayers.Placeholder.Expansion

/-!
# Environments

An environment holds named sources in order of precedence, the highest first. A key has the value
of the first source that holds it.
-/

namespace PropertyLayers

structure Source where
  name : Text
  properties : PropertyMap
deriving DecidableEq

/-- `lenient` keeps placeholders that have neither a value nor a default. -/
structure Environment where
  sources : List Source
  lenient : Bool
deriving DecidableEq

structure DuplicateName where
  name : Text
deriving DecidableEq

def DuplicateName.message (e : DuplicateName) : Text :=
  "Duplicate property source name: '" ++ e.name ++ "'"

namespace Environment

def empty (lenient : Bool) : Environment := ⟨[], lenient⟩

def get? (env : Environment) (name : Text) : Option Source :=
  env.sources.find? fun s => s.name = name

/-- Sources of pairwise different names make an environment. -/
def ofSources (sources : List Source) (lenient : Bool) : Except DuplicateName Environment :=
  sources.foldlM (fun env source =>
    match env.get? source.name with
    | some _ => .error ⟨source.name⟩
    | none => .ok { env with sources := env.sources ++ [source] }) (empty lenient)

/-- Without the first source that equals the one held under the name. -/
def remove (env : Environment) (name : Text) : Environment :=
  match env.get? name with
  | some source => { env with sources := env.sources.erase source }
  | none => env

/-- A source takes the place of the one of its name, at the top. -/
def addHighest (env : Environment) (source : Source) : Environment :=
  let env := env.remove source.name
  { env with sources := source :: env.sources }

def addLowest (env : Environment) (source : Source) : Environment :=
  let env := env.remove source.name
  { env with sources := env.sources ++ [source] }

def names (env : Environment) : List Text := env.sources.map Source.name

/-- Changes the properties of the source held under the name, where it stands. -/
def modify (env : Environment) (name : Text) (change : PropertyMap → PropertyMap) : Environment :=
  let rec go : List Source → List Source
    | [] => []
    | s :: rest =>
      if s.name = name then { s with properties := change s.properties } :: rest else s :: go rest
  { env with sources := go env.sources }

def put (env : Environment) (name key value : Text) : Environment :=
  env.modify name (·.insert key value)

def scope (env : Environment) : Scope := env.sources.map Source.properties

/-- The value in the first source that holds the key, placeholders and all. -/
def rawProperty? (env : Environment) (key : Text) : Option Text := env.scope.get? key

def resolve (env : Environment) (text : Text) : Except UnexpandedPlaceholder Text :=
  expand env.scope env.lenient [] text

/-- The value of the key with its placeholders expanded; the key is being visited. -/
def property? (env : Environment) (key : Text) : Except UnexpandedPlaceholder (Option Text) :=
  match env.rawProperty? key with
  | none => .ok none
  | some value => (expand env.scope env.lenient [key] value).map some

/-- All sources laid over each other, from the lowest to the highest. -/
def asMap (env : Environment) : PropertyMap :=
  env.sources.reverse.foldl (fun m s => m.update s.properties) ∅

end Environment

end PropertyLayers
