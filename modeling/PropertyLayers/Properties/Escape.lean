import PropertyLayers.Text.Basic

/-!
# Escapes of the properties grammar

A backslash escapes the code point after it. `\t`, `\n`, `\r` and `\f` are control characters,
`\uXXXX` is the code point of that number, and any other escaped code point stands for itself.
-/

namespace PropertyLayers.Properties

/-- A `\u` without four hexadecimal digits after it; the digits are what stands there instead. -/
structure BadEscape where
  digits : Text
deriving DecidableEq

def BadEscape.message (e : BadEscape) : Text := "Malformed \\uxxxx encoding: \\u" ++ e.digits

/-- What an escaped code point other than `u` stands for. -/
def escaped (c : CodePoint) : CodePoint :=
  if c = 't' then '\t'
  else if c = 'n' then '\n'
  else if c = 'r' then '\r'
  else if c = 'f' then '\x0c'
  else c

/-- Decodes the escapes. A backslash at the end stands for itself. -/
def unescape : Text → Except BadEscape Text
  | [] => .ok []
  | c :: rest =>
    if c = '\\' then
      match rest with
      | [] => .ok [c]
      | e :: rest =>
        if e = 'u' then
          match rest with
          | d₁ :: d₂ :: d₃ :: d₄ :: rest =>
            match Text.hexValue? [d₁, d₂, d₃, d₄] with
            | some n => (unescape rest).map (CodePoint.ofNat n :: ·)
            | none => .error ⟨[d₁, d₂, d₃, d₄]⟩
          | digits => .error ⟨digits⟩
        else (unescape rest).map (escaped e :: ·)
    else (unescape rest).map (c :: ·)

end PropertyLayers.Properties
