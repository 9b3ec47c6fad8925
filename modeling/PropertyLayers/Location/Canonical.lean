import PropertyLayers.Files.Path
import PropertyLayers.Location.Scheme
import PropertyLayers.Placeholder.Syntax
import PropertyLayers.TestClass

/-!
# Canonical locations

A class declares locations as seen from its package. In canonical form a location has a scheme, or
starts with a placeholder that is to give one, and its path is normal. A location that holds a
placeholder keeps its path as it is.
-/

namespace PropertyLayers

namespace Location

def placeholderStart : Text := [dollar, openBrace]

def cleanPath (scheme path : Text) : Text :=
  let clean := (FilePath.ofText path).normal.toText
  if scheme = classPathScheme then clean.dropLeading FilePath.slash else clean

/-- The location with a normal path after its scheme. -/
def clean (location : Text) : Text :=
  let (scheme, path) := splitScheme location
  if placeholderStart.holds location || path.isEmpty then location
  else scheme ++ cleanPath scheme path

end Location

namespace TestClass

/-- The path of the package that a class is in: its module, if that is a package, and else what the
module is in. -/
def packagePath (c : TestClass) : Text :=
  let package := if c.inPackage then c.module else ((c.module.cutLast? '.').map Prod.fst).getD []
  package.replace '.' FilePath.slash

/-- A path in the package of the class, as a location. -/
def inOwnPackage (c : TestClass) (path : Text) : Text :=
  if c.packagePath.isEmpty then Location.classPathScheme ++ path
  else Location.classPathScheme ++ c.packagePath ++ FilePath.slash :: path

/-- The location of the resource that belongs to the class by its name. -/
def defaultLocation (c : TestClass) (suffix : Text) : Text := c.inOwnPackage (c.qualname ++ suffix)

/-- A location that the class declares, in full: one that starts with a slash is seen from the
roots, and one without a scheme from the package of the class. -/
def qualify (c : TestClass) (location : Text) : Text :=
  if location.head? = some FilePath.slash then
    Location.classPathScheme ++ location.dropLeading FilePath.slash
  else if Location.hasScheme location || Location.placeholderStart.isPrefixOf location then location
  else c.inOwnPackage location

def canonical (c : TestClass) (location : Text) : Text := Location.clean (c.qualify location)

end TestClass

end PropertyLayers
