import PropertyLayers.Text.Basic

/-!
# Paths

A path is a list of segments, anchored or not. Empty segments and single points are dropped when a
text is read as a path; `..` stays, for what it leads to is for the directories to say. A path that
starts with exactly two slashes keeps both.
-/

namespace PropertyLayers

inductive Anchor where
  | relative
  | root
  | doubleRoot
deriving DecidableEq

structure FilePath where
  anchor : Anchor
  segments : List Text
deriving DecidableEq

namespace FilePath

def slash : CodePoint := '/'

def upward : Text := ".."

def isSegment (part : Text) : Bool := !part.isEmpty && part ≠ "."

def anchorOf (t : Text) : Anchor :=
  match (t.takeWhile (· = slash)).length with
  | 0 => .relative
  | 2 => .doubleRoot
  | _ => .root

def ofText (t : Text) : FilePath := ⟨anchorOf t, (t.split slash).filter isSegment⟩

/-- The second path seen from the first; an anchored path is the same from everywhere. -/
def append (base path : FilePath) : FilePath :=
  match path.anchor with
  | .relative => ⟨base.anchor, base.segments ++ path.segments⟩
  | _ => path

instance : Append FilePath := ⟨append⟩

def child (path : FilePath) (name : Text) : FilePath := path ++ ofText name

/-- Without its last segment. -/
def parent (path : FilePath) : FilePath := { path with segments := path.segments.dropLast }

def anchorText : Anchor → Text
  | .relative => []
  | .root => "/"
  | .doubleRoot => "//"

def toText (path : FilePath) : Text :=
  match path.anchor, path.segments with
  | .relative, [] => "."
  | anchor, segments => anchorText anchor ++ Text.join [slash] segments

/-- Goes one segment further. `..` takes back the segment before it; at the start of a relative path
there is none, and at the root there is nowhere to go. -/
def goOn (anchored : Bool) (way : List Text) (segment : Text) : List Text :=
  if segment ≠ upward || way.getLast? = some upward then way ++ [segment]
  else if way.isEmpty then if anchored then [] else [segment]
  else way.dropLast

/-- The path without the segments that `..` takes back. -/
def normal (path : FilePath) : FilePath :=
  { path with segments := path.segments.foldl (goOn (path.anchor ≠ .relative)) [] }

/-- The path from the root, seen from a directory. -/
def resolve (directory path : FilePath) : FilePath :=
  normal ⟨.root, (directory ++ path).segments⟩

/-- A path and all above it, the path itself first. -/
def ancestors (path : FilePath) : List FilePath :=
  (List.range (path.segments.length + 1)).map fun n =>
    { path with segments := path.segments.take (path.segments.length - n) }

end FilePath

end PropertyLayers
