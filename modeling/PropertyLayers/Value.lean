import PropertyLayers.Failure
import PropertyLayers.Moment
import PropertyLayers.Number.Shortest
import PropertyLayers.Text.Quoted

/-!
# Values

The values of configuration data: what a table of settings, a resource or a record may hold before
it is checked.
-/

namespace PropertyLayers

inductive Value where
  | null
  | bool (b : Bool)
  | int (n : Int)
  | float (x : Binary64)
  | text (t : Text)
  | moment (m : Moment)
  | testClass (c : TestClass)
  | list (items : List Value)
  | table (entries : List (Text × Value))
deriving Inhabited

/-- A table: keys in the order in which they first came. -/
abbrev Table := List (Text × Value)

namespace Value

/-- The name of the type of a value, for messages. -/
def kind : Value → Text
  | .null => "NoneType"
  | .bool _ => "bool"
  | .int _ => "int"
  | .float _ => "float"
  | .text _ => "str"
  | .moment m => m.kind
  | .testClass _ => "type"
  | .list _ => "list"
  | .table _ => "dict"

/-- The decimal text of an integer that is not too long to be written. -/
def intText? (n : Int) : Option Text :=
  let digits := Text.ofInt n
  if maxIntegerDigits < (Text.ofNat n.natAbs).length then none else some digits

mutual

/-- The value as it stands inside a list: texts quoted, lists and tables in brackets. -/
def literal? : Value → Option Text
  | .null => some "None"
  | .bool b => some (flagText b)
  | .int n => intText? n
  | .float x => some x.toText
  | .text t => some t.quoted
  | .moment m => some m.literal
  | .testClass c => some ("<class '" ++ c.name ++ "'>")
  | .list items => (literalItems? items).map fun parts => "[" ++ Text.join ", " parts ++ "]"
  | .table entries =>
    (literalEntries? entries).map fun parts => "\x7b" ++ Text.join ", " parts ++ "\x7d"

def literalItems? : List Value → Option (List Text)
  | [] => some []
  | item :: rest => do return (← literal? item) :: (← literalItems? rest)

def literalEntries? : List (Text × Value) → Option (List Text)
  | [] => some []
  | (key, value) :: rest =>
    do return (key.quoted ++ ": " ++ (← literal? value)) :: (← literalEntries? rest)

end

/-- The text of a value as a property: a text is itself and a truth value is in small letters. -/
def propertyText? : Value → Option Text
  | .bool b => some (if b then "true" else "false")
  | .text t => some t
  | .moment m => some m.toText
  | value => literal? value

end Value

end PropertyLayers
