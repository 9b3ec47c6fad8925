import PropertyLayers.Text.Basic

/-!
# Test classes

A class is known by its module and by its qualified name in the module. Classes may print alike and
differ all the same; `variant` tells them apart.
-/

namespace PropertyLayers

/-- `inPackage` says that the module of the class is itself a package. -/
structure TestClass where
  module : Text
  qualname : Text
  variant : Text
  inPackage : Bool
deriving DecidableEq

/-- The class once these packages are known, for its module may be one of them. -/
def TestClass.amid (packages : List Text) (c : TestClass) : TestClass :=
  { c with inPackage := c.inPackage || packages.contains c.module }

/-- The full name, as messages and reports show it. -/
def TestClass.name (c : TestClass) : Text := c.module ++ "." ++ c.qualname

end PropertyLayers
