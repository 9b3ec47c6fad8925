import PropertyLayers.CommandLine.Report
import PropertyLayers.CommandLine.Target
import PropertyLayers.Configuration.Resolve
import PropertyLayers.Declaration.Merge
import PropertyLayers.Environment.Application
import PropertyLayers.Resource.ClassPath

/-!
# Running commands

A command ends with an exit code and with what it prints, or it breaks off where a failure is none
of those that are reported. What is looked up and applied on the way is logged on demand.
-/

namespace PropertyLayers

inductive ExitCode where
  | success
  | configurationError
  | inputError
deriving DecidableEq

namespace ExitCode

def code : ExitCode → Nat
  | .success => 0
  | .configurationError => 1
  | .inputError => 2

def all : List ExitCode := [.success, .configurationError, .inputError]

def name : ExitCode → Text
  | .success => "SUCCESS"
  | .configurationError => "CONFIGURATION_ERROR"
  | .inputError => "INPUT_ERROR"

end ExitCode

/-- Failures that are not reported but break a command off. -/
inductive Breach where
  | configuration (fault : ConfigurationFault)
  | target (fault : TargetFault)
  | sources (failure : Failure)
  /-- A value in a report holds surrogates, or the output does not take the report. -/
  | unwritable

inductive Outcome where
  | exit (code : ExitCode) (out err : Text)
  | help (code : ExitCode)
  | misuse
  | broken (breach : Breach) (err : Text)

/-- Where a command runs: files, roots that modules are imported from, and classes. -/
structure Surroundings where
  tree : FileTree
  importRoots : List Text
  catalog : Catalog
  /-- What importing names comes to, beside the modules of the catalog. -/
  known : List (Text × Except ImportFault Module) := []
  /-- Members of modules that the catalog does not list. -/
  unlisted : Text → List Text → Option Member := fun _ _ => none
  codecs : Codecs := .builtIn
  refusesNameless : Bool := false
  /-- Whether there is no home directory to look for the file of the user in. -/
  homeless : Bool := false
  /-- Whether the output takes a text. -/
  prints : Text → Bool := fun _ => true

namespace Surroundings

/-- The import roots, the working directory among them. -/
def roots (s : Surroundings) : List Text :=
  let here := s.tree.workingDirectory.toText
  if s.importRoots.contains here then s.importRoots else here :: s.importRoots

def modules (s : Surroundings) : ModulePath :=
  ⟨s.tree, s.roots.map FilePath.ofText, s.known ++ s.catalog.modules⟩

def classPath (s : Surroundings) (settings : Settings) : ClassPath where
  searchPaths := settings.searchPaths.map FilePath.ofText
  modules := s.modules
  codecs := s.codecs
  refusesNameless := s.refusesNameless

/-- The settings for the working directory. -/
def settings (s : Surroundings) : Except ConfigurationFault Settings :=
  if s.homeless then .error (.inaccessible .notName)
  else Configuration.resolveWith s.codecs s.tree (.ofText []) []

/-- The class that a target names. -/
def target (s : Surroundings) (target : Text) : Except TargetFault TestClass :=
  s.catalog.targetWith s.unlisted s.modules target

end Surroundings

namespace Outcome

def errorText (message : Text) : Text := "Error: " ++ message ++ "\n"

/-- A failure of sources is reported unless it comes from the encoding, the import system or the file
system. -/
def ofFailure (log : Text) (failure : Failure) : Outcome :=
  match failure with
  | .unknownEncoding _ => .broken (.sources failure) log
  | .notTextEncoding _ => .broken (.sources failure) log
  | .unanswered _ => .broken (.sources failure) log
  | _ => .exit .configurationError [] (log ++ errorText failure.message)

def ofTargetFault (target log : Text) (fault : TargetFault) : Outcome :=
  match fault.message? target with
  | some message => .exit .inputError [] (log ++ errorText message)
  | none => .broken (.target fault) log

/-- The wording for a configuration that is reported as invalid. -/
def configurationText? : ConfigurationFault → Option Text
  | .layer fault => some fault.message
  | .badSyntax => some "TOMLDecodeError"
  | .isDirectory => some "OSError"
  | .inaccessible .notName => none
  | .inaccessible _ => some "OSError"
  | .invalid _ => some "ValidationError"
  | .undecodable => none
  | .longNumeral => none

def ofConfigurationFault (fault : ConfigurationFault) : Outcome :=
  match configurationText? fault with
  | some text => .exit .inputError []
      (errorText ("Invalid propstack configuration: " ++ text
        ++ "\nCheck [tool.propstack] in pyproject.toml and ~/.config/propstack/config.toml."))
  | none => .broken (.configuration fault) []

end Outcome

/-! ## The log -/

namespace Log

def line (logger message : Text) : Text := "DEBUG " ++ logger ++ ": " ++ message ++ "\n"

def loaderLine (message : Text) : Text := line "propstack.environment._loader" message

def applicationLine (message : Text) : Text := line "propstack.environment._integrator" message

/-- What is logged when a location is looked up: which root a path is found under, or that it is not
found. -/
def lookup (cp : ClassPath) (location : Text) : Text :=
  match ClassPath.pathOf? location with
  | none => []
  | some path =>
    if path.isEmpty then []
    else match cp.findPath path with
      | .ok none => loaderLine ("No resource found for classpath:" ++ path)
      | .ok (some (.underRoot root _)) =>
        loaderLine ("Resolved classpath:" ++ path ++ " under root " ++ root.toText)
      | _ => []

def addition (source : Source) : Text :=
  applicationLine ("Adding property source [" ++ source.name ++ "] with highest precedence")

def entries (entries : List Text) : Text :=
  applicationLine ("Adding inlined properties to store: [" ++
    Text.join ", " (entries.map Text.quoted) ++ "]")

def merging (cp : ClassPath) (suffix : Text) (declarations : List Declaration) : Text :=
  (askedDefaults cp.loader suffix [] (Declaration.levels declarations)).flatMap (lookup cp)

def application (cp : ClassPath) (encoding : Text) (env : Environment) (merged : MergedSources) :
    Text :=
  let staging := env.stage cp.loader encoding [] merged.locations
  staging.asked.flatMap (lookup cp) ++
    match staging.outcome with
    | .error _ => []
    | .ok sources =>
      sources.flatMap addition ++
        match Properties.readEntries merged.properties with
        | .error _ => []
        | .ok _ => if merged.properties.isEmpty then [] else entries merged.properties

end Log

/-! ## The commands -/

namespace Surroundings

/-- The effective properties of merged sources in an environment of their own. -/
def effective (cp : ClassPath) (settings : Settings) (merged : MergedSources) :
    Except Failure (List EffectiveProperty) :=
  let applied := (Environment.empty settings.lenient).applyMerged cp.loader settings.encoding merged
  match applied.failure? with
  | some failure => .error failure
  | none => applied.environment.effective.mapError .unexpanded

/-- Prints a text on a line of its own, if it could be written and the output takes it. -/
def printed (s : Surroundings) (text? : Option Text) (log : Text) : Outcome :=
  match text?.filter s.prints with
  | some text => .exit .success (text ++ "\n") log
  | none => .broken .unwritable log

def inspectWith (s : Surroundings) (settings : Settings) (verbose : Bool) (target : Text)
    (resolve : Bool) (format : Format) : Outcome :=
  let shown (log : Text) : Text := if verbose then log else []
  match s.target target with
  | .error fault => .ofTargetFault target [] fault
  | .ok c =>
    let cp := s.classPath settings
    let declarations := s.catalog.hierarchy.declarations c
    let log := Log.merging cp settings.suffix declarations
    match mergeDeclarations cp.loader settings.suffix declarations with
    | .error failure => .ofFailure (shown log) failure
    | .ok merged =>
      if !resolve then s.printed ((Report.mk c.name merged none).write? format) (shown log)
      else
        let log := log ++ Log.application cp settings.encoding (.empty settings.lenient) merged
        match effective cp settings merged with
        | .error failure => .ofFailure (shown log) failure
        | .ok properties =>
          s.printed ((Report.mk c.name merged (some properties)).write? format) (shown log)

def inspect (s : Surroundings) (verbose : Bool) (target : Text) (resolve : Bool)
    (format : Format) : Outcome :=
  match s.settings with
  | .error fault => .ofConfigurationFault fault
  | .ok settings => s.inspectWith settings verbose target resolve format

def entryLine (entry : Text × Text) : Text := entry.1 ++ "=" ++ entry.2

def parse (s : Surroundings) (entries : List Text) (format : Format) : Outcome :=
  match Properties.readEntries entries, format with
  | .error malformed, _ => .ofFailure [] (.malformedEntry malformed)
  | .ok m, .text =>
    let lines := m.entries.map entryLine
    if lines.all s.prints then .exit .success (lines.flatMap (· ++ "\n")) []
    else .broken .unwritable []
  | .ok m, .json => s.printed (Json.write? (.object [("properties", .ofMap m)])) []

def version : Text := "0.1.0"

def run (s : Surroundings) : Command → Outcome
  | .help => .help .success
  | .helpUnasked => .help .inputError
  | .version => s.printed (some version) []
  | .misuse => .misuse
  | .inspect verbose target resolve format => s.inspect verbose target resolve format
  | .parse _ entries format => s.parse entries format

end Surroundings

end PropertyLayers
