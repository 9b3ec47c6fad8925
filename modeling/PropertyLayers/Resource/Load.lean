import PropertyLayers.Properties.Document
import PropertyLayers.Resource.Encoding
import PropertyLayers.Resource.Loader
import PropertyLayers.Toml.Document
import PropertyLayers.Toml.Flat

/-!
# Sources from resources

A resource whose location ends in `.toml` is a TOML document in UTF-8; any other is a properties
text in an encoding of choice. The source that it makes is named after the location
(`name_of_source`).
-/

namespace PropertyLayers

/-- The text that the content of a resource writes in the encoding of this name. No content is the
empty text under any name. -/
def decodeContent (codecs : Codecs) (location encoding : Text) (content : Bytes) :
    Except Failure Text :=
  if encoding.hasSurrogate then .error (.unloadable location .surrogateInEncoding)
  else if encoding.contains (CodePoint.ofNat 0) then .error (.unloadable location .nullInEncoding)
  else if content.isEmpty then .ok []
  else match codecs.encoding? encoding with
    | none => .error (.unknownEncoding encoding)
    | some .notText => .error (.notTextEncoding encoding)
    | some (.text decode) =>
      (decode content).mapError fun wording => .unloadable location (.undecodable wording)

def readToml (content : Bytes) : Except LoadFault PropertyMap :=
  match Codec.utf8.decode content with
  | none => .error (.undecodable undecodableText)
  | some text =>
    match Toml.readDocument text with
    | .error .syntaxError => .error .badSyntax
    | .error (.longNumeral digits) => .error (.longNumeral digits)
    | .ok table =>
      match Toml.flatten table with
      | none => .error .longInteger
      | some properties => .ok properties

def isToml (location : Text) : Bool := (Text.ofString ".toml").isSuffixOf location

def readContent (codecs : Codecs) (location encoding : Text) (content : Bytes) :
    Except Failure PropertyMap :=
  if isToml location then (readToml content).mapError (.unloadable location)
  else do
    let text ← decodeContent codecs location encoding content
    (Properties.readText text).mapError fun escape => .unloadable location (.badEscape escape)

/-- The source at a location. -/
def Loader.source (loader : Loader) (location encoding : Text) : Except Failure Source := do
  let content ← loader.load location
  let properties ← readContent loader.codecs location encoding content
  return ⟨location, properties⟩

theorem Loader.name_of_source {loader : Loader} {location encoding : Text} {source : Source}
    (h : loader.source location encoding = .ok source) : source.name = location := by
  unfold Loader.source at h
  rcases hl : loader.load location with _ | content <;> rw [hl] at h
  · cases h
  rcases hr : readContent loader.codecs location encoding content with _ | properties <;>
    simp only [bind, Except.bind, hr, pure, Except.pure] at h <;> cases h
  rfl

end PropertyLayers
