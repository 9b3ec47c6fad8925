import PropertyLayers.Hierarchy.Catalog

/-!
# Targets

A target `module:Class` names a class by its module and its qualified name.
-/

namespace PropertyLayers

inductive TargetFault where
  | malformed
  | notImported (module : Text) (fault : ImportFault)
  | noMember (module qualname : Text)
  | notClass
  /-- A module that starts with a point would have to be relative to something. -/
  | relative
deriving DecidableEq

/-- The wording of a fault of a target. There is none for a relative module, nor for an import that
is refused with an error that is not one of importing. -/
def TargetFault.message? (target : Text) : TargetFault → Option Text
  | .malformed => some ("Invalid target '" ++ target ++ "': expected 'package.module:ClassName'")
  | .notImported module fault =>
    match fault with
    | .refused ⟨false, _⟩ => none
    | _ => some ("Cannot import module '" ++ module ++ "': " ++ fault.message)
  | .noMember module qualname =>
    some ("'" ++ module ++ "' has no attribute '" ++ qualname ++ "'")
  | .notClass => some ("'" ++ target ++ "' is not a class")
  | .relative => none

/-- The class that a target names. What the catalog does not list may still be a member of a module,
such as what a class has from its own type. -/
def Catalog.targetWith (catalog : Catalog) (unlisted : Text → List Text → Option Member)
    (mp : ModulePath) (target : Text) : Except TargetFault TestClass :=
  match target.cut? ':' with
  | none => .error .malformed
  | some (module, qualname) =>
    if module.isEmpty || qualname.isEmpty then .error .malformed
    else if module.head? = some (CodePoint.ofChar '.') then .error .relative
    else match mp.importModule module with
      | .error fault => .error (.notImported module fault)
      | .ok _ =>
        let path := qualname.split '.'
        match (catalog.member? module path).or (unlisted module path) with
        | some (.testClass c) => .ok c
        | some .other => .error .notClass
        | none => .error (.noMember module qualname)

/-- The class that a target names among those of the catalog. -/
def Catalog.target (catalog : Catalog) (mp : ModulePath) (target : Text) :
    Except TargetFault TestClass :=
  catalog.targetWith (fun _ _ => none) mp target

end PropertyLayers
