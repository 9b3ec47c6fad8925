import PropertyLayers.Text.Basic

/-!
# Text codecs

How the bytes of a resource become a text. Each decoder refuses bytes that its encoding does not
write; only the single-byte encoding Latin-1 takes all of them.
-/

namespace PropertyLayers

abbrev Bytes := List UInt8

inductive ByteOrder where
  | little
  | big
deriving DecidableEq

/-- The encodings that turn bytes into texts; `utf16` takes its byte order from a mark at the start
and is little endian without one, `utf8Marked` drops a mark. -/
inductive Codec where
  | ascii
  | latin1
  | windows1252
  | utf8
  | utf8Marked
  | utf16
  | utf16Plain (order : ByteOrder)
deriving DecidableEq

namespace Codec

def decodeAscii (bytes : Bytes) : Option Text :=
  bytes.mapM fun b => if b < 0x80 then some (CodePoint.ofNat b.toNat) else none

def decodeLatin1 (bytes : Bytes) : Text := bytes.map fun b => CodePoint.ofNat b.toNat

/-- The code points of the bytes 0x80 to 0x9F in Windows-1252; five of them have none. -/
def windows1252Upper : List (Option Nat) :=
  [some 0x20AC, none, some 0x201A, some 0x0192, some 0x201E, some 0x2026, some 0x2020, some 0x2021,
   some 0x02C6, some 0x2030, some 0x0160, some 0x2039, some 0x0152, none, some 0x017D, none,
   none, some 0x2018, some 0x2019, some 0x201C, some 0x201D, some 0x2022, some 0x2013, some 0x2014,
   some 0x02DC, some 0x2122, some 0x0161, some 0x203A, some 0x0153, none, some 0x017E, some 0x0178]

def decodeWindows1252 (bytes : Bytes) : Option Text :=
  bytes.mapM fun b =>
    if 0x80 ≤ b && b ≤ 0x9F then
      (windows1252Upper[b.toNat - 0x80]?).join.map CodePoint.ofNat
    else some (CodePoint.ofNat b.toNat)

/-- Decodes UTF-8 in the middle of a character: `owed` bytes are missing, the next of which lies
between `low` and `high`, and `value` is what the ones before it say. -/
def decodeUtf8From (owed low high value : Nat) : Bytes → Option Text
  | [] => if owed = 0 then some [] else none
  | b :: rest =>
    let n := b.toNat
    if owed = 0 then
      if n < 0x80 then (decodeUtf8From 0 0 0 0 rest).map (CodePoint.ofNat n :: ·)
      else if n < 0xC2 then none
      else if n < 0xE0 then decodeUtf8From 1 0x80 0xBF (n - 0xC0) rest
      else if n = 0xE0 then decodeUtf8From 2 0xA0 0xBF 0 rest
      else if n = 0xED then decodeUtf8From 2 0x80 0x9F 0xD rest
      else if n < 0xF0 then decodeUtf8From 2 0x80 0xBF (n - 0xE0) rest
      else if n = 0xF0 then decodeUtf8From 3 0x90 0xBF 0 rest
      else if n < 0xF4 then decodeUtf8From 3 0x80 0xBF (n - 0xF0) rest
      else if n = 0xF4 then decodeUtf8From 3 0x80 0x8F 4 rest
      else none
    else if low ≤ n && n ≤ high then
      let value := value * 64 + (n - 0x80)
      if owed = 1 then (decodeUtf8From 0 0 0 0 rest).map (CodePoint.ofNat value :: ·)
      else decodeUtf8From (owed - 1) 0x80 0xBF value rest
    else none

def decodeUtf8 (bytes : Bytes) : Option Text := decodeUtf8From 0 0 0 0 bytes

/-- The bytes of a code point in UTF-8. -/
def utf8Bytes (c : CodePoint) : Bytes :=
  let n := c.val
  let tail (n : Nat) : UInt8 := UInt8.ofNat (0x80 + n % 64)
  if n < 0x80 then [UInt8.ofNat n]
  else if n < 0x800 then [UInt8.ofNat (0xC0 + n / 64), tail n]
  else if n < 0x10000 then [UInt8.ofNat (0xE0 + n / 4096), tail (n / 64), tail n]
  else [UInt8.ofNat (0xF0 + n / 262144), tail (n / 4096), tail (n / 64), tail n]

/-- Pairs of bytes as 16-bit units; an odd byte at the end makes none. -/
def units (order : ByteOrder) : Bytes → Option (List Nat)
  | [] => some []
  | [_] => none
  | a :: b :: rest =>
    let unit := match order with
      | .little => b.toNat * 256 + a.toNat
      | .big => a.toNat * 256 + b.toNat
    (units order rest).map (unit :: ·)

/-- The code points of 16-bit units, where each high surrogate is followed by a low one. -/
def ofUnits : List Nat → Option Text
  | [] => some []
  | u :: rest =>
    if 0xD800 ≤ u && u ≤ 0xDBFF then
      match rest with
      | [] => none
      | v :: rest =>
        if 0xDC00 ≤ v && v ≤ 0xDFFF then
          (ofUnits rest).map
            (CodePoint.ofNat (0x10000 + (u - 0xD800) * 0x400 + (v - 0xDC00)) :: ·)
        else none
    else if 0xDC00 ≤ u && u ≤ 0xDFFF then none
    else (ofUnits rest).map (CodePoint.ofNat u :: ·)

def decodeUtf16 (order : ByteOrder) (bytes : Bytes) : Option Text :=
  (units order bytes).bind ofUnits

def decode : Codec → Bytes → Option Text
  | .ascii, bytes => decodeAscii bytes
  | .latin1, bytes => some (decodeLatin1 bytes)
  | .windows1252, bytes => decodeWindows1252 bytes
  | .utf8, bytes => decodeUtf8 bytes
  | .utf8Marked, 0xEF :: 0xBB :: 0xBF :: bytes => decodeUtf8 bytes
  | .utf8Marked, bytes => decodeUtf8 bytes
  | .utf16, 0xFF :: 0xFE :: bytes => decodeUtf16 .little bytes
  | .utf16, 0xFE :: 0xFF :: bytes => decodeUtf16 .big bytes
  | .utf16, bytes => decodeUtf16 .little bytes
  | .utf16Plain order, bytes => decodeUtf16 order bytes

end Codec

end PropertyLayers
