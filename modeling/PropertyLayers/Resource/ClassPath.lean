import PropertyLayers.Location.Scheme
import PropertyLayers.Resource.Loader
import PropertyLayers.Resource.Module
import PropertyLayers.Text.Identifier

/-!
# The class path

A location `classpath:package/name` names a resource of a package that can be imported, or else a
file under one of the roots: the search paths, and then the roots of modules. Any other
location is the path of a file, with or without `file:` before it.
-/

namespace PropertyLayers

structure ClassPath where
  searchPaths : List FilePath
  modules : ModulePath
  codecs : Codecs := .builtIn
  /-- Whether a package of several directories refuses to look for a resource without a name. -/
  refusesNameless : Bool := false

/-- Where a resource is, and its content. -/
inductive Hit where
  | inPackage (content : Bytes)
  | underRoot (root : FilePath) (content : Bytes)
  | atPath (content : Bytes)

def Hit.content : Hit → Bytes
  | .inPackage content => content
  | .underRoot _ content => content
  | .atPath content => content

namespace ClassPath

def tree (cp : ClassPath) : FileTree := cp.modules.tree

def roots (cp : ClassPath) : List FilePath := cp.searchPaths ++ cp.modules.roots

/-- The path of a resource in the first directory that has something of its name, or else in the
first directory. -/
def resourcePath (cp : ClassPath) (name : Text) (directories : List FilePath) : Option FilePath :=
  (directories.find? fun d => (cp.tree.locate (d.child name)).toBool).or directories.head?
    |>.map (·.child name)

/-- The package that the text before the last slash of a path stands for, and the text after it. All
parts of the name of a package are identifiers. -/
def packagePart? (path : Text) : Option (Text × Text) :=
  match path.cutLast? FilePath.slash with
  | none => none
  | some (directory, name) =>
    let package := directory.replace FilePath.slash '.'
    if (package.split '.').all Text.isIdentifier then some (package, name) else none

/-- The content of a file. A path or a name that is too long is a failure here, and nowhere else. -/
def fileContent (cp : ClassPath) (path : FilePath) : Except Failure (Option Bytes) :=
  match cp.tree.hasFile path with
  | .error _ => .error (.unanswered .nameTooLong)
  | .ok _ => .ok (cp.tree.content? path)

/-- Whether a package of several directories does not look for this name, since it is none. -/
def refusesName (cp : ClassPath) (name : Text) : Bool :=
  cp.refusesNameless && (FilePath.ofText name).segments.isEmpty

/-- What a module has under the name of a resource. -/
def resourceIn (cp : ClassPath) (name : Text) : Module → Except Failure (Option Bytes)
  | .plain => .ok none
  | .bare => .error (.unanswered .bare)
  | .package directory => cp.fileContent (directory.child name)
  | .portions directories =>
    if cp.refusesName name then .error (.unanswered .nameless)
    else match cp.resourcePath name directories with
      | some path => cp.fileContent path
      | none => .ok none
  | .provided resource => (resource name).mapError fun refusal => .unanswered (.refused refusal)

/-- The content of a resource of a package. That a module is not there is no failure, but every
other fault of its import is. -/
def packageResource (cp : ClassPath) (package name : Text) : Except Failure (Option Bytes) :=
  match cp.modules.importModule package with
  | .ok module => cp.resourceIn name module
  | .error (.missing ..) => .ok none
  | .error (.refused refusal) => .error (.unanswered (.refused refusal))

/-- The first file at the path under a root. -/
def underRoots (cp : ClassPath) (path : FilePath) : Option Hit :=
  cp.roots.findSome? fun root => (cp.tree.content? (root ++ path)).map (.underRoot root)

/-- What a path names: a resource of a package, or else a file under a root. -/
def findPath (cp : ClassPath) (path : Text) : Except Failure (Option Hit) := do
  let hit ← match packagePart? path with
    | some (package, name) => (cp.packageResource package name).map (·.map .inPackage)
    | none => .ok none
  return hit.or (cp.underRoots (FilePath.ofText path))

/-- The path after the scheme of a location under the class path. -/
def pathOf? (location : Text) : Option Text :=
  (Text.afterStart? Location.classPathScheme location).map (Text.dropLeading FilePath.slash)

/-- The file that a location names; one that has another scheme names none. -/
def filePath? (location : Text) : Option FilePath :=
  match Text.afterStart? Location.fileScheme location with
  | some path => some (.ofText ((Text.afterStart? "//" path).getD path))
  | none => if Location.hasScheme location then none else some (.ofText location)

def find (cp : ClassPath) (location : Text) : Except Failure (Option Hit) :=
  match pathOf? location with
  | some path => if path.isEmpty then .ok none else cp.findPath path
  | none => .ok ((filePath? location >>= cp.tree.content?).map .atPath)

/-- The packages that are loaded to look at a location. -/
def discovers (cp : ClassPath) (location : Text) : List Text :=
  match pathOf? location >>= packagePart? with
  | some (package, _) => cp.modules.packagesTo package
  | none => []

/-- The loader of the resources on the class path. -/
def loader (cp : ClassPath) : Loader where
  has location := (cp.find location).map Option.isSome
  load location := do
    match ← cp.find location with
    | some hit => .ok hit.content
    | none => .error (.unloadable location .missing)
  discovers := cp.discovers
  codecs := cp.codecs

end ClassPath

end PropertyLayers
