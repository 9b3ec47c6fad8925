import PropertyLayers.Hierarchy.Basic
import PropertyLayers.Resource.Module

/-!
# Catalogs of classes

A catalog holds the classes of modules that are loaded, under their qualified names. A class is
found as a member of its module or, if it is nested, as a member of the class around it or of a
class derived from that. A module may have members that are no classes.
-/

namespace PropertyLayers

inductive Member where
  | testClass (c : TestClass)
  | other

/-- `others` are the modules and names of members that are no classes. -/
structure Catalog where
  hierarchy : Hierarchy
  others : List (Text × Text)

namespace Catalog

def classes (catalog : Catalog) : List TestClass := catalog.hierarchy.records.map (·.identity)

/-- The modules of the catalog, which are loaded. Those that are packages are left out: where they
are is for the import roots to say. -/
def modules (catalog : Catalog) : List (Text × Except ImportFault Module) :=
  let plain := catalog.classes.filter (!·.inPackage)
  (plain.map TestClass.module ++ catalog.others.map Prod.fst).map (·, .ok .plain)

/-- The class of this qualified name; of two, the one that was added later. -/
def find? (catalog : Catalog) (module qualname : Text) : Option TestClass :=
  catalog.classes.reverse.find? fun c => c.module = module && c.qualname = qualname

def moduleMember? (catalog : Catalog) (module name : Text) : Option Member :=
  if catalog.others.contains (module, name) then some .other
  else if name.contains (CodePoint.ofChar '.') then none
  else (catalog.find? module name).map .testClass

/-- A class nested in the given one or in one of its ancestors, the closest first. -/
def nested? (catalog : Catalog) (c : TestClass) (name : Text) : Option TestClass :=
  (catalog.hierarchy.order c).findSome? fun a => catalog.find? a.module (a.qualname ++ "." ++ name)

/-- Goes from a member to what is nested in it. -/
def memberFrom (catalog : Catalog) : Member → List Text → Option Member
  | member, [] => some member
  | .testClass c, name :: rest => do catalog.memberFrom (.testClass (← catalog.nested? c name)) rest
  | .other, _ :: _ => none

/-- The member of a module at a path of names. -/
def member? (catalog : Catalog) (module : Text) : List Text → Option Member
  | [] => none
  | name :: rest => do catalog.memberFrom (← catalog.moduleMember? module name) rest

end Catalog

end PropertyLayers
