import PropertyLayers.CommandLine.Run

/-!
# The program

Reads the files that a configuration may come from, runs the command and prints its outcome. The
program itself has no classes loaded.
-/

namespace PropertyLayers

def nativeText (t : Text) : String := String.ofList (t.map fun c => Char.ofNat c.val)

/-- Adds a file to a tree, if it can be read. -/
def addFile (root : Node) (path : FilePath) : IO Node := do
  match path.segments.mapM nameBytes? with
  | none => return root
  | some names =>
    try
      let content ← IO.FS.readBinFile ⟨nativeText path.toText⟩
      return Node.place (.file content.toList) names root
    catch _ => return root

/-- The files of the configuration: that of the user, and project files from the working directory
upwards. -/
def readTree : IO FileTree := do
  let here := FilePath.ofText (toString (← IO.currentDir))
  let home := FilePath.ofText ((← IO.getEnv "HOME").getD "")
  let tree : FileTree := ⟨.directory [], here, home⟩
  let projectFiles := here.ancestors.map fun d => d.child Configuration.projectFileName
  let root ← (Configuration.userFile tree :: projectFiles).foldlM addFile tree.root
  return { tree with root }

def usage : String := "Usage: propstack [--version] [-v|--verbose] [--help] (show|parse) ..."

/-- Prints an outcome and gives the exit code. -/
def Outcome.print : Outcome → IO UInt32
  | .exit code out err => do
    IO.print (nativeText out)
    IO.eprint (nativeText err)
    return code.code.toUInt32
  | .help code => do
    IO.println usage
    return code.code.toUInt32
  | .misuse => do
    IO.eprintln usage
    return ExitCode.inputError.code.toUInt32
  | .broken _ err => do
    IO.eprint (nativeText err)
    return ExitCode.configurationError.code.toUInt32

end PropertyLayers

open PropertyLayers in
def main (args : List String) : IO UInt32 := do
  let surroundings : Surroundings :=
    { tree := ← readTree, importRoots := [], catalog := ⟨.empty, []⟩,
      prints := fun t => !t.hasSurrogate }
  (surroundings.run (Command.ofWords (args.map Text.ofString))).print
