import PropertyLayers.Files.Path
import PropertyLayers.Keyed
import PropertyLayers.Resource.Codec

/-!
# File trees

Regular files in directories, seen from a working directory. A walk along a path goes through
directories only, and none holds a name of more than 255 bytes. A path as a whole has no more than
4095.
-/

namespace PropertyLayers

inductive Node where
  | file (content : Bytes)
  | directory (entries : List (Bytes × Node))

inductive PathFault where
  | missing
  | notDirectory
  | nameTooLong
  /-- A segment holds what no name can. -/
  | notName
deriving DecidableEq

/-- The bytes that a code point puts into a name. U+DC80 to U+DCFF stand for single bytes; NUL and
the other surrogates have none. -/
def CodePoint.nameBytes? (c : CodePoint) : Option Bytes :=
  if c.val = 0 then none
  else if 0xDC80 ≤ c.val && c.val ≤ 0xDCFF then some [UInt8.ofNat (c.val - 0xDC00)]
  else if c.isSurrogate then none
  else some (Codec.utf8Bytes c)

def nameBytes? (name : Text) : Option Bytes := (name.mapM CodePoint.nameBytes?).map List.flatten

def maxNameBytes : Nat := 255

def maxPathBytes : Nat := 4095

/-- Whether a path takes more bytes than a path can have. -/
def FilePath.isTooLong (path : FilePath) : Bool :=
  (nameBytes? path.toText).any fun bytes => maxPathBytes < bytes.length

namespace Node

def isDirectory : Node → Bool
  | .directory _ => true
  | .file _ => false

/-- What a directory holds under a name. -/
def entry : Node → Bytes → Except PathFault Node
  | .file _, _ => .error .notDirectory
  | .directory entries, name =>
    if maxNameBytes < name.length then .error .nameTooLong
    else match Keyed.find? name entries with
      | some child => .ok child
      | none => .error .missing

/-- Walks from a node, the directories above which are given from the nearest to the root. -/
def walk : Node → List Node → List Bytes → Except PathFault Node
  | here, _, [] => .ok here
  | here, above, name :: rest =>
    if name = [46, 46] then
      match here, above with
      | .file _, _ => .error .notDirectory
      | .directory _, [] => walk here [] rest
      | .directory _, parent :: above => walk parent above rest
    else match here.entry name with
      | .ok child => walk child (here :: above) rest
      | .error fault => .error fault

/-- Puts a node under a chain of names, making the directories on the way. -/
def place (node : Node) : List Bytes → Node → Node
  | [], _ => node
  | name :: rest, .directory entries =>
    let inner := (Keyed.find? name entries).getD (.directory [])
    .directory (Keyed.put name (place node rest inner) entries)
  | name :: rest, .file _ => .directory [(name, place node rest (.directory []))]

end Node

/-- Relative paths start in the working directory. -/
structure FileTree where
  root : Node
  workingDirectory : FilePath
  home : FilePath

namespace FileTree

/-- What a walk along a path comes to. -/
def locate (tree : FileTree) (path : FilePath) : Except PathFault Node :=
  match (tree.workingDirectory ++ path).segments.mapM nameBytes? with
  | some names => tree.root.walk [] names
  | none => .error .notName

/-- What there is at a path. One that is too long as a whole is not walked along. -/
def node (tree : FileTree) (path : FilePath) : Except PathFault Node :=
  if path.isTooLong then .error .nameTooLong else tree.locate path

/-- Whether there is a regular file. A path or a name that is too long cannot even be asked for. -/
def hasFile (tree : FileTree) (path : FilePath) : Except PathFault Bool :=
  match tree.node path with
  | .ok (.file _) => .ok true
  | .error .nameTooLong => .error .nameTooLong
  | _ => .ok false

/-- The content of a regular file. -/
def content? (tree : FileTree) (path : FilePath) : Option Bytes :=
  match tree.node path with
  | .ok (.file content) => some content
  | _ => none

end FileTree

end PropertyLayers
