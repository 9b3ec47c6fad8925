import PropertyLayers.Text.Basic

/-!
# Classes of code points

A class is written as the ascending list of the numbers at which it begins and ends in turn, so a
number is in the class where an odd count of them lies at or below it.
-/

namespace PropertyLayers.CodePoint

/-- Whether the class with these boundaries holds the code point. -/
def inClass (boundaries : List Nat) (c : CodePoint) : Bool :=
  (boundaries.takeWhile (· ≤ c.val)).length % 2 = 1

end PropertyLayers.CodePoint
