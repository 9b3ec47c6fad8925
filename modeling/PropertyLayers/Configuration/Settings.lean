import PropertyLayers.Record.Scalar
import PropertyLayers.Resource.Encoding

/-!
# Settings

How default resources are named, how resources are read, and where they are searched for.
-/

namespace PropertyLayers

structure Settings where
  /-- What follows the name of a class in the name of its default resource. -/
  suffix : Text
  encoding : Text
  searchPaths : List Text
  /-- Whether placeholders without a value stay as they are. -/
  lenient : Bool
deriving DecidableEq

namespace Settings

def defaultSuffix : Text := ".properties"

def defaultEncoding : Text := "utf-8"

def default : Settings := ⟨defaultSuffix, defaultEncoding, [], false⟩

/-- A suffix has a point in front and something behind it. -/
def checkSuffix : Check Text := fun value =>
  (Check.longText 2 value).andThen fun t =>
    if t.head? = some (CodePoint.ofChar '.') then .ok t else .fault (.badSuffix t)

/-- An encoding is a name that is known, be it for texts or not. -/
def checkEncoding (codecs : Codecs) : Check Text := fun value =>
  (Check.longText 1 value).andThen fun t =>
    if t.contains (CodePoint.ofNat 0) then .fault .nullInEncoding
    else if (codecs.encoding? t).isSome then .ok t
    else .fault (.badEncoding t)

def checkWith (codecs : Codecs) : Check Settings :=
  Check.record ["default_suffix", "encoding", "search_paths", "ignore_unresolvable_placeholders"]
    fun t =>
      Settings.mk <$> Check.field "default_suffix" (some defaultSuffix) checkSuffix t
        <*> Check.field "encoding" (some defaultEncoding) (checkEncoding codecs) t
        <*> Check.field "search_paths" (some []) (Check.items (Check.longText 1) 0) t
        <*> Check.field "ignore_unresolvable_placeholders" (some false) Check.strictBool t

/-- The check with the codecs that are built in. -/
def check : Check Settings := checkWith .builtIn

end Settings

end PropertyLayers
