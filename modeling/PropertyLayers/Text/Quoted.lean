import PropertyLayers.Text.Printable

/-!
# Quoted text

A text in quotes, on one line and with everything visible: double quotes where the text holds single
quotes and no double ones, single quotes else. Backslashes and the quote are escaped, and so is each
code point that is not printable, by a short escape or by its number in hexadecimal digits.
-/

namespace PropertyLayers.Text

def quoteFor (t : Text) : CodePoint :=
  if t.contains (CodePoint.ofChar '\x27') && !t.contains (CodePoint.ofChar '\x22') then '\x22'
  else '\x27'

def quotedCodePoint (quote c : CodePoint) : Text :=
  if c = quote || c = '\\' then ['\\', c]
  else if c = '\n' then "\\n"
  else if c = '\r' then "\\r"
  else if c = '\t' then "\\t"
  else if c.isPrintable then [c]
  else if c.val < 0x100 then "\\x" ++ hex 2 c.val
  else if c.val < 0x10000 then "\\u" ++ hex 4 c.val
  else "\\U" ++ hex 8 c.val

def quoted (t : Text) : Text :=
  let quote := quoteFor t
  quote :: t.flatMap (quotedCodePoint quote) ++ [quote]

/-- Bytes in quotes, of which those of ASCII are written as characters. -/
def quotedBytes (bytes : List UInt8) : Text :=
  let t := bytes.map fun b => CodePoint.ofNat b.toNat
  let quote := quoteFor t
  let byteText (c : CodePoint) : Text :=
    if c.val < 0x80 then quotedCodePoint quote c else "\\x" ++ hex 2 c.val
  "b" ++ quote :: t.flatMap byteText ++ [quote]

end PropertyLayers.Text
