import PropertyLayers.Configuration.Layer
import PropertyLayers.Files.Tree
import PropertyLayers.Toml.Document

/-!
# Resolving the configuration

The layers are, from the lowest: the file of the user, the section of the nearest project file from
a directory upwards, and overrides. What they come to is checked as a whole.
-/

namespace PropertyLayers

inductive ConfigurationFault where
  | layer (fault : LayerFault)
  | badSyntax
  | undecodable
  | longNumeral
  | isDirectory
  | inaccessible (fault : PathFault)
  | invalid (faults : List RecordFault)

namespace Configuration

def projectFileName : Text := "pyproject.toml"

def userFile (tree : FileTree) : FilePath :=
  tree.home ++ FilePath.ofText ".config/propstack/config.toml"

def readTable (content : Bytes) : Except ConfigurationFault Table :=
  match Codec.utf8.decode content with
  | none => .error .undecodable
  | some text =>
    match Toml.readDocument text with
    | .ok table => .ok table
    | .error .syntaxError => .error .badSyntax
    | .error (.longNumeral _) => .error .longNumeral

def anchored (path : FilePath) (layer : Table) : Except ConfigurationFault Table :=
  (Layer.anchorSearchPaths path.parent layer).mapError .layer

/-- The layer of the user, if there is a file. -/
def userLayer (tree : FileTree) : Except ConfigurationFault (Option Table) :=
  match tree.node (userFile tree) with
  | .ok (.file content) => do return some (← anchored (userFile tree) (← readTable content))
  | .ok (.directory _) => .error .isDirectory
  | .error .missing => .ok none
  | .error fault => .error (.inaccessible fault)

/-- The first of the paths at which there is a regular file. -/
def firstFile (tree : FileTree) : List FilePath → Except ConfigurationFault (Option FilePath)
  | [] => .ok none
  | path :: rest =>
    match tree.hasFile path with
    | .error fault => .error (.inaccessible fault)
    | .ok true => .ok (some path)
    | .ok false => firstFile tree rest

/-- The project file of a directory or, failing that, of the nearest directory above. -/
def projectFile (tree : FileTree) (start : FilePath) :
    Except ConfigurationFault (Option FilePath) :=
  if (start.segments.mapM nameBytes?).isNone then .error (.inaccessible .notName)
  else firstFile tree
    ((tree.workingDirectory.resolve start).ancestors.map fun d => d.child projectFileName)

def toolKey : Text := "tool"

def sectionKey : Text := "propstack"

/-- The section of a project file that is for this program. -/
def projectSection (table : Table) : Except ConfigurationFault (Option Table) :=
  match Keyed.find? toolKey table with
  | some (.table tool) =>
    match Keyed.find? sectionKey tool with
    | none => .ok none
    | some (.table layer) => .ok (some layer)
    | some value => .error (.layer (.sectionNoTable value.kind))
  | _ => .ok none

def projectLayer (tree : FileTree) (start : FilePath) :
    Except ConfigurationFault (Option Table) := do
  let some path ← projectFile tree start | return none
  let content := (tree.content? path).getD []
  let some layer ← projectSection (← readTable content) | return none
  return some (← anchored path layer)

/-- The settings for a directory. An override that is null is none. -/
def resolveWith (codecs : Codecs) (tree : FileTree) (start : FilePath) (overrides : Table) :
    Except ConfigurationFault Settings := do
  let user ← userLayer tree
  let project ← projectLayer tree start
  let layers := user.toList ++ project.toList ++ [Layer.withoutNulls overrides]
  (Settings.checkWith codecs (.table (Layer.merge layers))).toExcept.mapError .invalid

/-- The settings for a directory, with the codecs that are built in. -/
def resolve (tree : FileTree) (start : FilePath) (overrides : Table) :
    Except ConfigurationFault Settings :=
  resolveWith .builtIn tree start overrides

end Configuration

end PropertyLayers
