import PropertyLayers.Text.Basic

/-!
# Blank code points

The white space of Unicode together with the four information separators.
-/

namespace PropertyLayers

def CodePoint.isBlank (c : CodePoint) : Bool :=
  (9 ≤ c.val && c.val ≤ 13) || (28 ≤ c.val && c.val ≤ 32) || c.val = 0x85 || c.val = 0xA0
    || c.val = 0x1680 || (0x2000 ≤ c.val && c.val ≤ 0x200A) || c.val = 0x2028 || c.val = 0x2029
    || c.val = 0x202F || c.val = 0x205F || c.val = 0x3000

/-- Nothing but blanks. -/
def Text.isBlank (t : Text) : Bool := t.all CodePoint.isBlank

end PropertyLayers
