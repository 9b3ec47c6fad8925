import PropertyLayers.Declaration.Fold
import PropertyLayers.Declaration.Merged
import PropertyLayers.Record.Scalar

/-!
# Declarations from records

What is left out of a record is empty, inherits, and stands at level and distance 0.
-/

namespace PropertyLayers

def textsField (name : Text) : Table → Checked (List Text) :=
  Check.field name (some []) (Check.items Check.text 0)

def inheritField (name : Text) : Table → Checked Bool := Check.field name (some true) Check.bool

def attachmentFields : List Text :=
  ["locations", "properties", "inherit_locations", "inherit_properties", "distance"]

def Attachment.ofFields (t : Table) : Checked Attachment :=
  Attachment.mk <$> textsField "locations" t <*> textsField "properties" t
    <*> inheritField "inherit_locations" t <*> inheritField "inherit_properties" t
    <*> Check.field "distance" (some 0) Check.nat t

def Attachment.check : Check Attachment := Check.record attachmentFields Attachment.ofFields

/-- The class comes first in a record, and the level before the distance. -/
def Declaration.check : Check Declaration :=
  Check.record ("declaring_unit" :: "aggregate_index" :: attachmentFields) fun t =>
    (fun declaring locations properties inheritLocations inheritProperties level distance =>
        { declaring, locations, properties, inheritLocations, inheritProperties, level, distance })
      <$> Check.field "declaring_unit" none Check.testClass t
      <*> textsField "locations" t <*> textsField "properties" t
      <*> inheritField "inherit_locations" t <*> inheritField "inherit_properties" t
      <*> Check.field "aggregate_index" (some 0) Check.nat t
      <*> Check.field "distance" (some 0) Check.nat t

/-- A list of declarations as a level; the check of the list lets no empty one through. -/
def Level.ofList (index : Nat) (declarations : List Declaration) : Checked Level :=
  if h : declarations ≠ [] then .ok ⟨index, declarations, h⟩
  else .faults [⟨[.field "declarations"], .listTooShort⟩]

def Level.check : Check Level := fun value =>
  (Check.record ["aggregate_index", "declarations"] (fun t =>
      Prod.mk <$> Check.field "aggregate_index" none Check.nat t
        <*> Check.field "declarations" none (Check.items Declaration.check 1) t) value).andThen
    fun (index, declarations) => Level.ofList index declarations

def FoldedLevel.check : Check FoldedLevel :=
  Check.record ["declaring_unit", "aggregate_index", "locations", "properties",
      "inherit_locations", "inherit_properties"] fun t =>
    FoldedLevel.mk <$> Check.field "declaring_unit" none Check.testClass t
      <*> Check.field "aggregate_index" none Check.nat t
      <*> textsField "locations" t <*> textsField "properties" t
      <*> inheritField "inherit_locations" t <*> inheritField "inherit_properties" t

def MergedSources.check : Check MergedSources :=
  Check.record ["locations", "properties"] fun t =>
    MergedSources.mk <$> textsField "locations" t <*> textsField "properties" t

/-- Why arguments make no attachment. -/
inductive AttachmentFault where
  /-- A text is given where a list of texts belongs. -/
  | textForList (argument : Text)
  /-- A value of this kind has no items. -/
  | noItems (kind : Text)
  | unknownArgument (name : Text)
  | invalid (faults : List RecordFault)

def AttachmentFault.message? : AttachmentFault → Option Text
  | .textForList argument =>
    some ("'" ++ argument ++ "' must be an iterable of strings, not a string")
  | .noItems kind => some ("'" ++ kind ++ "' object is not iterable")
  | .unknownArgument _ => none
  | .invalid _ => none

/-- The items of a list, or the keys of a table. -/
def itemsOf : Value → Except AttachmentFault (List Value)
  | .list items => .ok items
  | .table entries => .ok (entries.map fun (key, _) => .text key)
  | .text t => .ok (t.map fun c => .text [c])
  | value => .error (.noItems value.kind)

def listArgument (arguments : Table) (name : Text) : Except AttachmentFault (List (Text × Value)) :=
  match Keyed.find? name arguments with
  | none => .ok []
  | some value => (itemsOf value).map fun items => [(name, .list items)]

def Value.isText : Value → Bool
  | .text _ => true
  | _ => false

/-- The names of the arguments, in the order in which they are looked at. -/
def attachmentArguments : List Text :=
  ["locations", "properties", "inherit_locations", "inherit_properties"]

/-- The attachment with these arguments. Texts in place of lists are refused before
anything else. -/
def Attachment.ofArguments (arguments : Table) : Except AttachmentFault Attachment := do
  if let some name := (Keyed.keys arguments).find? (!attachmentArguments.contains ·) then
    throw (.unknownArgument name)
  let isGivenText (name : Text) : Bool := (Keyed.find? name arguments).any Value.isText
  if let some name := (["locations", "properties"] : List Text).find? isGivenText then
    throw (.textForList name)
  let locations ← listArgument arguments "locations"
  let properties ← listArgument arguments "properties"
  let flags := arguments.filter fun (name, _) =>
    name = "inherit_locations" || name = "inherit_properties"
  (Attachment.check (.table (locations ++ properties ++ flags))).toExcept.mapError .invalid

end PropertyLayers
