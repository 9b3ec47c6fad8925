import PropertyLayers.Value

/-!
# Checking records

A check turns a value into what the program works with, or gives all faults of the value, each with
its place. The faults of a record stand in the order of its fields, and after them the fields
that it does not have, in the order in which they are given.
-/

namespace PropertyLayers

/-- A step from a value into one of its parts. -/
inductive Step where
  | field (name : Text)
  | item (index : Nat)
deriving DecidableEq

inductive RecordFaultKind where
  | missingField
  | unknownField
  | notRecord
  | notText
  /-- A text holds a surrogate, which is no character. -/
  | notUnicode
  | textTooShort
  | notList
  | listTooShort
  | notBool
  | unreadableBool
  | notInt
  | unreadableInt
  | fractionalInt
  | infiniteInt
  | intTooLong
  | negativeInt
  | notClass
  | frozen
  | badSuffix (suffix : Text)
  | badEncoding (encoding : Text)
  | nullInEncoding
deriving DecidableEq

structure RecordFault where
  place : List Step
  kind : RecordFaultKind
deriving DecidableEq

namespace RecordFaultKind

/-- The word for a kind of fault. -/
def name : RecordFaultKind → Text
  | .missingField => "missing"
  | .unknownField => "extra_forbidden"
  | .notRecord => "model_type"
  | .notText => "string_type"
  | .notUnicode => "string_unicode"
  | .textTooShort => "string_too_short"
  | .notList => "tuple_type"
  | .listTooShort => "too_short"
  | .notBool => "bool_type"
  | .unreadableBool => "bool_parsing"
  | .notInt => "int_type"
  | .unreadableInt => "int_parsing"
  | .fractionalInt => "int_from_float"
  | .infiniteInt => "finite_number"
  | .intTooLong => "int_parsing_size"
  | .negativeInt => "greater_than_equal"
  | .notClass => "is_subclass_of"
  | .frozen => "frozen_instance"
  | .badSuffix _ => "value_error"
  | .badEncoding _ => "value_error"
  | .nullInEncoding => "value_error"

/-- What a rule of this program's own says. -/
def message? : RecordFaultKind → Option Text
  | .badSuffix suffix =>
    some ("Value error, Invalid default_suffix '" ++ suffix ++ "': must start with '.'")
  | .badEncoding encoding => some ("Value error, Unknown encoding '" ++ encoding ++ "'")
  | .nullInEncoding => some "Value error, embedded null character"
  | _ => none

end RecordFaultKind

/-- What a check gives: a value, or faults. -/
inductive Checked (α : Type) where
  | ok (value : α)
  | faults (found : List RecordFault)

abbrev Check (α : Type) := Value → Checked α

namespace Checked

variable {α β : Type}

def fault (kind : RecordFaultKind) : Checked α := .faults [⟨[], kind⟩]

def value? : Checked α → Option α
  | .ok value => some value
  | .faults _ => none

def found : Checked α → List RecordFault
  | .ok _ => []
  | .faults found => found

def map (f : α → β) : Checked α → Checked β
  | .ok value => .ok (f value)
  | .faults found => .faults found

/-- Puts two results together. The faults of both stand in order. -/
def seq : Checked (α → β) → Checked α → Checked β
  | .ok f, .ok value => .ok (f value)
  | f, value => .faults (f.found ++ value.found)

instance : Applicative Checked where
  pure := .ok
  map := map
  seq f value := seq f (value ())

/-- The result seen from one step further out. -/
def inside (step : Step) : Checked α → Checked α
  | .ok value => .ok value
  | .faults found => .faults (found.map fun f => { f with place := step :: f.place })

/-- Goes on with a value that has no faults so far. -/
def andThen (checked : Checked α) (next : α → Checked β) : Checked β :=
  match checked with
  | .ok value => next value
  | .faults found => .faults found

def toExcept : Checked α → Except (List RecordFault) α
  | .ok value => .ok value
  | .faults found => .error found

end Checked

namespace Check

variable {α : Type}

/-- The items of a list, of which at least so many have to be without fault. -/
def items (check : Check α) (least : Nat) : Check (List α)
  | .list values =>
    let results := values.zipIdx.map fun (v, i) => (check v).inside (.item i)
    let good := results.filterMap Checked.value?
    let found := results.flatMap Checked.found
      ++ if good.length < least then [⟨[], .listTooShort⟩] else []
    if found.isEmpty then .ok good else .faults found
  | _ => .fault .notList

/-- A field of a record, with the value that it has when it is not given. -/
def field (name : Text) (default? : Option α) (check : Check α) (fields : Table) : Checked α :=
  match Keyed.find? name fields with
  | some value => (check value).inside (.field name)
  | none =>
    match default? with
    | some value => .ok value
    | none => .faults [⟨[.field name], .missingField⟩]

/-- Refuses fields of other names. -/
def noOthers (names : List Text) (fields : Table) : Checked Unit :=
  match (Keyed.keys fields).filter fun name => !names.contains name with
  | [] => .ok ()
  | others => .faults (others.map fun name => ⟨[.field name], .unknownField⟩)

/-- A record of fields of these names and of no others. -/
def record (names : List Text) (read : Table → Checked α) : Check α
  | .table fields => read fields <* noOthers names fields
  | _ => .fault .notRecord

end Check

/-- A field of a record never changes. Names with an underscore in front are not fields. -/
def assignField (name : Text) : Checked Unit :=
  if name.head? = some (CodePoint.ofChar '_') then .ok ()
  else .faults [⟨[.field name], .frozen⟩]

end PropertyLayers
