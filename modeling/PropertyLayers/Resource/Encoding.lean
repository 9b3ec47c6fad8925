import PropertyLayers.Resource.Codec

/-!
# Names of encodings

Which codec a name stands for is for a registry of codecs to say. The one that is built in finds an
encoding whatever the case of its name and whatever stands between the words. Some known names
belong to codecs that do not make a text out of bytes.
-/

namespace PropertyLayers

/-- What a known name stands for: a codec for texts, which gives the text or the wording of why
there is none, or a codec that is not for texts. -/
inductive Encoding where
  | text (decode : Bytes → Except Text Text)
  | notText

/-- The wording for bytes that an encoding does not write. -/
def undecodableText : Text := "UnicodeDecodeError"

def Codec.toEncoding (codec : Codec) : Encoding :=
  .text fun bytes => ((codec.decode bytes).map .ok).getD (.error undecodableText)

/-- The codecs that names stand for. Whatever else is known, UTF-8 is. -/
structure Codecs where
  encoding? : Text → Option Encoding
  encoding?_utf8 : encoding? "utf-8" = some Codec.utf8.toEncoding

namespace Codecs

def inWord (c : CodePoint) : Bool := c.isLetter || c.isDigit || c = '.'

/-- The words of a name in small letters, with one underscore between them. `gap` says that the
words so far, if there are any, have ended. -/
def canonicalFrom (started gap : Bool) : Text → Text
  | [] => []
  | c :: rest =>
    if inWord c then
      if started && gap then '_' :: c.toLower :: canonicalFrom true false rest
      else c.toLower :: canonicalFrom true false rest
    else canonicalFrom started true rest

def canonical (name : Text) : Text := canonicalFrom false false name

/-- A codec that is built in, or none for one that is not for texts, with its own name and its other
names, all in canonical form. -/
structure Entry where
  codec? : Option Codec
  name : String
  aliases : List String

def entries : List Entry :=
  [⟨some .utf8, "utf_8", ["utf8", "u8", "utf", "utf8_ucs2", "utf8_ucs4", "cp65001"]⟩,
   ⟨some .utf8Marked, "utf_8_sig", []⟩,
   ⟨some .ascii, "ascii", ["us_ascii", "us", "646", "ansi_x3.4_1968", "ansi_x3_4_1968",
     "ansi_x3.4_1986", "cp367", "csascii", "ibm367", "iso646_us", "iso_646.irv_1991", "iso_ir_6"]⟩,
   ⟨some .latin1, "latin_1", ["latin1", "latin", "l1", "8859", "cp819", "csisolatin1", "ibm819",
     "iso8859", "iso8859_1", "iso_8859_1", "iso_8859_1_1987", "iso_ir_100"]⟩,
   ⟨some .windows1252, "cp1252", ["1252", "windows_1252"]⟩,
   ⟨some .utf16, "utf_16", ["utf16", "u16"]⟩,
   ⟨some (.utf16Plain .little), "utf_16_le", ["utf_16le", "unicodelittleunmarked"]⟩,
   ⟨some (.utf16Plain .big), "utf_16_be", ["utf_16be", "unicodebigunmarked"]⟩,
   ⟨none, "hex_codec", ["hex"]⟩,
   ⟨none, "rot_13", ["rot13"]⟩,
   ⟨none, "base64_codec", ["base64", "base_64"]⟩,
   ⟨none, "bz2_codec", ["bz2"]⟩,
   ⟨none, "zlib_codec", ["zip", "zlib"]⟩,
   ⟨none, "quopri_codec", ["quopri", "quoted_printable", "quotedprintable"]⟩,
   ⟨none, "uu_codec", ["uu"]⟩]

/-- Whether a name in canonical form is one of the entry. In its other names a point may stand for
an underscore. -/
def Entry.hasName (entry : Entry) (name : Text) : Bool :=
  Text.ofString entry.name = name
    || entry.aliases.any fun other => Text.ofString other = name
      || Text.ofString other = name.replace '.' '_'

def Entry.encoding (entry : Entry) : Encoding :=
  match entry.codec? with
  | some codec => codec.toEncoding
  | none => .notText

/-- The codecs that this program brings along. -/
def builtIn : Codecs where
  encoding? name := (entries.find? (·.hasName (canonical name))).map Entry.encoding
  encoding?_utf8 := rfl

end Codecs

end PropertyLayers
