import PropertyLayers.Configuration.Settings
import PropertyLayers.Files.Path

/-!
# Layers of configuration

A layer is a table of settings that are not checked yet. Of two layers the later one wins, key by
key. Relative search paths of a file are seen from the directory of the file.
-/

namespace PropertyLayers

/-- Where a value of this kind stands, something else belongs. -/
inductive LayerFault where
  | searchPathsNoList (kind : Text)
  | sectionNoTable (kind : Text)
deriving DecidableEq

def LayerFault.message : LayerFault → Text
  | .searchPathsNoList kind => "'search_paths' must be a list, got " ++ kind
  | .sectionNoTable kind => "[tool.propstack] must be a table, got " ++ kind

def Value.isNull : Value → Bool
  | .null => true
  | _ => false

namespace Layer

/-- Layers laid over each other, the lowest first. -/
def merge (layers : List Table) : Table := layers.foldl Keyed.putAll []

/-- The entries that are set to something. -/
def withoutNulls (layer : Table) : Table := layer.filter fun (_, value) => !value.isNull

def searchPathsKey : Text := "search_paths"

def anchorPath (base : FilePath) : Value → Value
  | .text path => .text (base ++ FilePath.ofText path).toText
  | value => value

/-- The layer with its search paths seen from a directory. What is not a text stays for the check to
refuse. -/
def anchorSearchPaths (base : FilePath) (layer : Table) : Except LayerFault Table :=
  match Keyed.find? searchPathsKey layer with
  | none => .ok layer
  | some .null => .ok layer
  | some (.list paths) => .ok (Keyed.put searchPathsKey (.list (paths.map (anchorPath base))) layer)
  | some value => .error (.searchPathsNoList value.kind)

end Layer

end PropertyLayers
