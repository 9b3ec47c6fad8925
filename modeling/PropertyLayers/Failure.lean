import PropertyLayers.Environment.Basic
import PropertyLayers.Properties.Inline
import PropertyLayers.TestClass

/-!
# Failures

Why property sources cannot be merged, loaded or applied, each cause with its wording.
-/

namespace PropertyLayers

/-- Two declarations of a level that do not agree: the value of the first, then that of another. -/
inductive Conflict where
  | declaringClass (previous current : TestClass)
  | inheritLocations (previous current : Bool)
  | inheritProperties (previous current : Bool)
deriving DecidableEq

/-- The most decimal digits that an integer may be read or written with. -/
def maxIntegerDigits : Nat := 4300

inductive LoadFault where
  | missing
  /-- Bytes that an encoding does not write, with its wording. -/
  | undecodable (wording : Text)
  | badEscape (escape : Properties.BadEscape)
  | badSyntax
  /-- An integer of this many digits is too long to be read. -/
  | longNumeral (digits : Nat)
  /-- An integer is too long to be written. -/
  | longInteger
  | nullInEncoding
  | surrogateInEncoding
deriving DecidableEq

/-- An import that is refused although there is something to import. -/
structure Refusal where
  /-- Whether the error is one of importing. -/
  ofImport : Bool
  message : Text
deriving DecidableEq

/-- Why it cannot be said whether there is a resource. -/
inductive LookupFault where
  | nameTooLong
  /-- The resource has no name, and the package does not take that for an answer. -/
  | nameless
  /-- What would hold the resource does not say where it comes from. -/
  | bare
  | refused (refusal : Refusal)
deriving DecidableEq

inductive Failure where
  | inconsistent (conflict : Conflict) (declaring : TestClass) (level : Nat)
  | noDefaultResource (declaring : TestClass) (location : Text)
  | malformedEntry (malformed : Properties.MalformedEntry)
  | unloadable (location : Text) (fault : LoadFault)
  | unexpanded (placeholder : UnexpandedPlaceholder)
  | unknownEncoding (name : Text)
  | notTextEncoding (name : Text)
  | unanswered (fault : LookupFault)
deriving DecidableEq

/-- Matches all failures to answer, of which a name that is too long is the common one. -/
@[match_pattern]
abbrev Failure.nameTooLong {fault : LookupFault} : Failure := .unanswered fault

def flagText (b : Bool) : Text := if b then "True" else "False"

namespace Conflict

def aspect : Conflict → Text
  | .declaringClass .. => "declaring_unit"
  | .inheritLocations .. => "inherit_locations"
  | .inheritProperties .. => "inherit_properties"

/-- The two values, the one of the first declaration before the other. -/
def shown : Conflict → Text × Text
  | .declaringClass previous current => ("[" ++ previous.name ++ "]", "[" ++ current.name ++ "]")
  | .inheritLocations previous current => (flagText previous, flagText current)
  | .inheritProperties previous current => (flagText previous, flagText current)

end Conflict

def LoadFault.message : LoadFault → Text
  | .missing => "resource does not exist"
  | .undecodable wording => wording
  | .badEscape escape => "ValueError: " ++ escape.message
  | .badSyntax => "TOMLDecodeError"
  | .longNumeral digits =>
    "ValueError: Exceeds the limit (" ++ Text.ofNat maxIntegerDigits
      ++ " digits) for integer string conversion: value has " ++ Text.ofNat digits
      ++ " digits; use sys.set_int_max_str_digits() to increase the limit"
  | .longInteger =>
    "ValueError: Exceeds the limit (" ++ Text.ofNat maxIntegerDigits
      ++ " digits) for integer string conversion"
      ++ "; use sys.set_int_max_str_digits() to increase the limit"
  | .nullInEncoding => "ValueError: embedded null character"
  | .surrogateInEncoding => "UnicodeEncodeError"

def LookupFault.message : LookupFault → Text
  | .nameTooLong => "File name too long"
  | .nameless => []
  | .bare => "'NoneType' object has no attribute 'submodule_search_locations'"
  | .refused refusal => refusal.message

def Failure.message : Failure → Text
  | .inconsistent conflict declaring level =>
    "Property source declarations on [" ++ declaring.name ++ "] (aggregate index "
      ++ Text.ofNat level ++ ") must declare the same value for '" ++ conflict.aspect
      ++ "': got " ++ conflict.shown.1 ++ " and " ++ conflict.shown.2
  | .noDefaultResource declaring location =>
    "Could not detect default properties file for [" ++ declaring.name ++ "]: " ++ location
      ++ " does not exist. Either declare 'locations' or 'properties', or make the default"
      ++ " properties file available."
  | .malformedEntry malformed =>
    "Failed to load exactly one inlined property from [" ++ malformed.entry ++ "]: "
      ++ malformed.fault.message
  | .unloadable location fault =>
    "Failed to load property source [" ++ location ++ "]: " ++ fault.message
  | .unexpanded placeholder =>
    "Could not resolve placeholder '" ++ placeholder.key ++ "' in value [" ++ placeholder.text
      ++ "]: " ++ placeholder.fault.message
  | .unknownEncoding name => "unknown encoding: " ++ name
  | .notTextEncoding name =>
    "'" ++ name ++ "' is not a text encoding; use codecs.decode() to handle arbitrary codecs"
  | .unanswered fault => fault.message

end PropertyLayers
