import PropertyLayers.Failure
import PropertyLayers.Files.Tree
import PropertyLayers.Text.Quoted

/-!
# Modules and packages

A module is imported part by part under the import roots, the parts inside a package under its
directories. A directory with an `__init__` file is a package and a file of the name is a plain
module, whichever comes first; failing both, all directories of the name make up one package
together.

What importing a name comes to can also be known beforehand: a module may be loaded, or come out of
an archive, or its import may be refused. So files that are not sources are refused here, for what
is in them is not for this program to run.
-/

namespace PropertyLayers

inductive Module where
  | plain
  | package (directory : FilePath)
  /-- The directories of one name that make up a package together. -/
  | portions (directories : List FilePath)
  /-- A module that does not say where it comes from. -/
  | bare
  /-- A package that hands out its resources itself, or refuses to. -/
  | provided (resource : Text → Except Refusal (Option Bytes))

namespace Module

def isPackage : Module → Bool
  | .plain | .bare => false
  | _ => true

/-- The directories that hold the parts of a module; only a package has any. -/
def directories? : Module → Option (List FilePath)
  | .plain | .bare => none
  | .package directory => some [directory]
  | .portions directories => some directories
  | .provided _ => some []

end Module

/-- Why a module is not imported. -/
inductive ImportFault where
  /-- The module is not there; `parent?` is what it would have to be in, if that is no package. -/
  | missing (name : Text) (parent? : Option Text)
  | refused (refusal : Refusal)
deriving DecidableEq

def ImportFault.message : ImportFault → Text
  | .missing name parent? =>
    "No module named " ++ name.quoted ++ match parent? with
      | some parent => "; " ++ parent.quoted ++ " is not a package"
      | none => []
  | .refused refusal => refusal.message

/-- Where modules are imported from. What importing a name comes to that is known is so whatever the
roots hold. -/
structure ModulePath where
  tree : FileTree
  roots : List FilePath
  known : List (Text × Except ImportFault Module)

namespace ModulePath

/-- What one directory has for a part of a name. -/
inductive Found where
  | outcome (outcome : Except ImportFault Module)
  | portion (directory : FilePath)
  | nothing

def isDirectory (mp : ModulePath) (path : FilePath) : Bool :=
  match mp.tree.node path with
  | .ok node => node.isDirectory
  | .error _ => false

/-! ## Files of modules -/

def sourceEnding : Text := ".py"

def bytecodeEnding : Text := ".pyc"

/-- The endings of the files of modules, those that win over others first. -/
def endings : List Text :=
  [".cpython-311-x86_64-linux-gnu.so", ".abi3.so", ".so", sourceEnding, bytecodeEnding]

structure ModuleFile where
  path : FilePath
  ending : Text
  content : Bytes

/-- The file of a module in a directory. -/
def file? (mp : ModulePath) (directory : FilePath) (stem : Text) : Option ModuleFile :=
  endings.findSome? fun ending =>
    let path := directory.child (stem ++ ending)
    (mp.tree.content? path).map (⟨path, ending, ·⟩)

/-- The bytes of the head of a library. -/
def libraryHeadSize : Nat := 64

/-- The wording for a file that is not a source. -/
def ModuleFile.refusalText (file : ModuleFile) (name : Text) : Text :=
  if file.ending = bytecodeEnding then
    "bad magic number in " ++ name.quoted ++ ": " ++ Text.quotedBytes (file.content.take 4)
  else
    file.path.toText ++ ": " ++
      if file.content.length < libraryHeadSize then Text.ofString "file too short"
      else Text.ofString "invalid ELF header"

/-- What importing a file gives if it is a source. -/
def ModuleFile.outcome (file : ModuleFile) (name : Text) (module : Module) :
    Except ImportFault Module :=
  if file.ending = sourceEnding then .ok module
  else .error (.refused ⟨true, file.refusalText name⟩)

/-! ## Imports -/

/-- A root that no file can have the name of cannot be looked into. -/
def unnameable : Refusal := ⟨false, "embedded null byte"⟩

def findIn (mp : ModulePath) (name part : Text) (root : FilePath) : Found :=
  let directory := root.child part
  if (root.segments.mapM nameBytes?).isNone then .outcome (.error (.refused unnameable))
  else if part.contains FilePath.slash then .nothing
  else match if part.isEmpty then none else mp.file? directory "__init__" with
    | some file => .outcome (file.outcome name (.package directory))
    | none =>
      match mp.file? root part with
      | some file => .outcome (file.outcome name .plain)
      | none =>
        if !part.isEmpty && mp.isDirectory directory then .portion directory else .nothing

/-- What a part of a name stands for under these roots. -/
def findUnder (mp : ModulePath) (name part : Text) (roots : List FilePath) :
    Except ImportFault Module :=
  let found := roots.map (mp.findIn name part)
  match found.findSome? fun | .outcome outcome => some outcome | _ => none with
  | some outcome => outcome
  | none =>
    match found.filterMap fun | .portion directory => some directory | _ => none with
    | [] => .error (.missing name none)
    | directories => .ok (.portions directories)

/-- The roots, seen from the root of the file tree. -/
def anchoredRoots (mp : ModulePath) : List FilePath :=
  mp.roots.map (mp.tree.workingDirectory ++ ·)

/-- Imports the module whose parts are given from the last to the first. -/
def importParts (mp : ModulePath) : List Text → Except ImportFault Module
  | [] => .ok (.portions mp.anchoredRoots)
  | part :: above =>
    let name := Text.join "." (part :: above).reverse
    match Keyed.find? name mp.known with
    | some outcome => outcome
    | none => do
      match (← mp.importParts above).directories? with
      | none => throw (.missing name (some (Text.join "." above.reverse)))
      | some directories => mp.findUnder name part directories

def importModule (mp : ModulePath) (name : Text) : Except ImportFault Module :=
  mp.importParts (name.split '.').reverse

/-- The packages that are loaded on the way to a module, from the outermost up to the last that can
be imported. On the way to a known module there are none but itself. -/
def packagesOnWay (mp : ModulePath) : List Text → List Text
  | [] => []
  | part :: above =>
    let name := Text.join "." (part :: above).reverse
    let here := match mp.importParts (part :: above) with
      | .ok module => if module.isPackage then [name] else []
      | .error _ => []
    if (Keyed.find? name mp.known).isSome then here else mp.packagesOnWay above ++ here

def packagesTo (mp : ModulePath) (name : Text) : List Text :=
  mp.packagesOnWay (name.split '.').reverse

end ModulePath

end PropertyLayers
