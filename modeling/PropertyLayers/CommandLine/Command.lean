import PropertyLayers.CommandLine.Options

/-!
# Commands

What a command line asks for. Requests for help and for the version come before everything else that
a line says, once all its options are known.
-/

namespace PropertyLayers

inductive Format where
  | text
  | json
deriving DecidableEq

inductive Command where
  /-- Help was asked for. -/
  | help
  /-- Nothing was asked for. -/
  | helpUnasked
  | version
  | misuse
  | inspect (verbose : Bool) (target : Text) (resolve : Bool) (format : Format)
  | parse (verbose : Bool) (entries : List Text) (format : Format)
deriving DecidableEq

namespace Command

def helpName : Text := "--help"

def versionName : Text := "--version"

def verboseNames : List Text := ["--verbose", "-v"]

def resolveName : Text := "--resolve"

def noResolveName : Text := "--no-resolve"

def formatName : Text := "--format"

def mainOptions : OptionNames := ⟨helpName :: versionName :: verboseNames, [], false⟩

def inspectOptions : OptionNames := ⟨[helpName, resolveName, noResolveName], [formatName], true⟩

def parseOptions : OptionNames := ⟨[helpName], [formatName], true⟩

def formatOf : Text → Option Format := fun name =>
  if name = "text" then some .text else if name = "json" then some .json else none

/-- The format that was given last. -/
def formatIn (given : GivenWords) : Option Format :=
  match given.last? [formatName] with
  | some (_, some name) => formatOf name
  | _ => some .text

def ofInspect (verbose : Bool) (words : List Text) : Command :=
  match inspectOptions.read words with
  | none => .misuse
  | some given =>
    if given.options.any (·.1 = helpName) then .help
    else match given.arguments, formatIn given with
      | [target], some format =>
        let resolve := (given.last? [resolveName, noResolveName]).any (·.1 = resolveName)
        .inspect verbose target resolve format
      | _, _ => .misuse

def ofParse (verbose : Bool) (words : List Text) : Command :=
  match parseOptions.read words with
  | none => .misuse
  | some given =>
    if given.options.any (·.1 = helpName) then .help
    else match given.arguments, formatIn given with
      | entry :: entries, some format => .parse verbose (entry :: entries) format
      | _, _ => .misuse

/-- What options before the command ask for on their own. -/
def ofMainOptions (given : GivenWords) : Option Command :=
  (given.first? [helpName, versionName]).map fun name =>
    if name = helpName then .help else .version

/-- A name that is no command but looks like an option is read as one. -/
def ofUnknownName (words : List Text) : Command :=
  ((mainOptions.read words).bind ofMainOptions).getD .misuse

def ofNamed (verbose : Bool) : List Text → Command
  | [] => .misuse
  | name :: words =>
    if name = "show" then ofInspect verbose words
    else if name = "parse" then ofParse verbose words
    else if name.head? = some OptionNames.dash then ofUnknownName (name :: words)
    else .misuse

def ofWords (words : List Text) : Command :=
  if words.isEmpty then .helpUnasked
  else match mainOptions.read words with
    | none => .misuse
    | some given =>
      match ofMainOptions given with
      | some command => command
      | none =>
        let verbose := given.options.any fun (name, _) => verboseNames.contains name
        ofNamed verbose given.arguments

end Command

end PropertyLayers
