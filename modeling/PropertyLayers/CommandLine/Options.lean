import PropertyLayers.Text.Basic

/-!
# Options on a command line

An option has a long name after two dashes, or a one-letter name after one dash, and letters may
share a dash. A value follows its option as the next word or after an equals sign. After two
dashes alone all words are arguments. Options may stand among the arguments
or end at the first of them.
-/

namespace PropertyLayers

/-- The options of a command: their names, with dashes, by whether they take a value. -/
structure OptionNames where
  flags : List Text
  valued : List Text
  amongArguments : Bool

/-- What was given: options with their values, in order, and arguments. -/
structure GivenWords where
  options : List (Text × Option Text)
  arguments : List Text
deriving DecidableEq

namespace OptionNames

def dash : CodePoint := '-'

def isOption : Text → Bool
  | first :: _ :: _ => first = dash
  | _ => false

/-- The flags that the letters after one dash stand for. -/
def shortFlags (names : OptionNames) (letters : Text) : Option (List (Text × Option Text)) :=
  letters.mapM fun letter =>
    if names.flags.contains [dash, letter] then some ([dash, letter], none) else none

/-- The option in a word that needs no other word. -/
def single (names : OptionNames) (word : Text) : Option (List (Text × Option Text)) :=
  let (name, value?) := match word.cut? '=' with
    | some (name, value) => (name, some value)
    | none => (word, none)
  match value? with
  | some value =>
    if names.valued.contains name then some [(name, some value)]
    else if names.flags.contains name then none
    else short
  | none => if names.flags.contains name then some [(name, none)] else short
where
  short : Option (List (Text × Option Text)) :=
    match word with
    | _ :: second :: rest => if second = dash then none else names.shortFlags (second :: rest)
    | _ => none

/-- Reads words; nothing if an option is not known, or lacks a value or has one that it does not
take. -/
def read (names : OptionNames) : List Text → Option GivenWords
  | [] => some ⟨[], []⟩
  | word :: rest =>
    if word = [dash, dash] then some ⟨[], rest⟩
    else if isOption word then
      if names.valued.contains word then
        match rest with
        | [] => none
        | value :: rest =>
          (names.read rest).map fun given =>
            { given with options := (word, some value) :: given.options }
      else do
        let options ← names.single word
        let given ← names.read rest
        return { given with options := options ++ given.options }
    else if names.amongArguments then
      (names.read rest).map fun given => { given with arguments := word :: given.arguments }
    else some ⟨[], word :: rest⟩

end OptionNames

/-- The first of these options that was given. -/
def GivenWords.first? (given : GivenWords) (names : List Text) : Option Text :=
  (given.options.map Prod.fst).find? (names.contains ·)

def GivenWords.last? (given : GivenWords) (names : List Text) : Option (Text × Option Text) :=
  given.options.reverse.find? fun (name, _) => names.contains name

end PropertyLayers
