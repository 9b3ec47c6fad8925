import PropertyLayers.Placeholder.Syntax
import PropertyLayers.PropertyMap

/-!
# Expansion of placeholders

A placeholder stands for the expansion of the value of its key, looked up in a stack of maps; for
its default where the key has no value; and else for itself in a lenient expansion. A key whose
value is being expanded may not be met again, so each step into a value leaves fewer keys to visit
and the expansion ends.
-/

namespace PropertyLayers

/-- Maps in the order in which they are asked for a key. -/
abbrev Scope := List PropertyMap

namespace Scope

def get? (scope : Scope) (key : Text) : Option Text := scope.findSome? (·.get? key)

def keys (scope : Scope) : List Text := scope.flatMap PropertyMap.keys

theorem mem_keys_of_get? {scope : Scope} {key value : Text} (h : scope.get? key = some value) :
    key ∈ scope.keys := by
  obtain ⟨m, hm, hv⟩ := List.exists_of_findSome?_eq_some h
  refine List.mem_flatMap.mpr ⟨m, hm, PropertyMap.contains_iff.mp ?_⟩
  simp [PropertyMap.contains, hv]

/-- How many keys the expansion may still step into. -/
def unvisited (scope : Scope) (visiting : List Text) : Nat :=
  (scope.keys.filter (· ∉ visiting)).length

theorem unvisited_cons_lt {scope : Scope} {visiting : List Text} {key : Text}
    (hk : key ∈ scope.keys) (hv : key ∉ visiting) :
    scope.unvisited (key :: visiting) < scope.unvisited visiting := by
  have hsub : (scope.keys.filter (· ∉ key :: visiting)) =
      (scope.keys.filter (· ∉ visiting)).filter (· ≠ key) := by
    rw [List.filter_filter]
    refine List.filter_congr fun x _ => ?_
    simp [not_or]
  rw [unvisited, unvisited, hsub]
  refine List.length_filter_lt_length_iff_exists.mpr ⟨key, ?_, by simp⟩
  simp [hk, hv]

end Scope

inductive PlaceholderFault where
  | unresolvable
  | circular
deriving DecidableEq

def PlaceholderFault.message : PlaceholderFault → Text
  | .unresolvable => "unresolvable"
  | .circular => "circular reference"

/-- The key at fault, and the text in which it stands as a placeholder. -/
structure UnexpandedPlaceholder where
  text : Text
  key : Text
  fault : PlaceholderFault
deriving DecidableEq

mutual

/-- The text with its placeholders expanded, while the values of `visiting` are being expanded. -/
def expand (scope : Scope) (lenient : Bool) (visiting : List Text) (text : Text) :
    Except UnexpandedPlaceholder Text :=
  expandPieces scope lenient visiting text (pieces text)
termination_by (scope.unvisited visiting, (pieces text).length + 1)

/-- The expansion of the last pieces of a text. A default holds no `}` and so no placeholder. -/
def expandPieces (scope : Scope) (lenient : Bool) (visiting : List Text) (text : Text) :
    List Piece → Except UnexpandedPlaceholder Text
  | [] => .ok []
  | .literal c :: rest => (expandPieces scope lenient visiting text rest).map (c :: ·)
  | .placeholder p :: rest =>
    if _hv : p.key ∈ visiting then .error ⟨text, p.key, .circular⟩
    else match _hk : scope.get? p.key with
      | some value => do
        let value ← expand scope lenient (p.key :: visiting) value
        let rest ← expandPieces scope lenient visiting text rest
        return value ++ rest
      | none =>
        match p.default? with
        | some value => (expandPieces scope lenient visiting text rest).map (value ++ ·)
        | none =>
          if lenient then (expandPieces scope lenient visiting text rest).map (p.source ++ ·)
          else .error ⟨text, p.key, .unresolvable⟩
termination_by ps => (scope.unvisited visiting, ps.length)
decreasing_by
  · exact Prod.Lex.right _ (by simp)
  · exact Prod.Lex.left _ _ (Scope.unvisited_cons_lt (Scope.mem_keys_of_get? _hk) _hv)
  all_goals exact Prod.Lex.right _ (by simp)

end

end PropertyLayers
