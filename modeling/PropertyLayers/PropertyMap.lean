import PropertyLayers.Keyed
import PropertyLayers.Text.Basic

/-!
# Property maps

A property map holds each key once, at the place where the key first came and with the value that
came last (`keys_insert`, `get?_insert`, `get?_ofPairs`).
-/

namespace PropertyLayers

structure PropertyMap where
  entries : List (Text × Text)
  nodup_keys : (Keyed.keys entries).Nodup
deriving DecidableEq

namespace PropertyMap

def empty : PropertyMap := ⟨[], by simp⟩

instance : EmptyCollection PropertyMap := ⟨empty⟩

def keys (m : PropertyMap) : List Text := Keyed.keys m.entries

def get? (m : PropertyMap) (key : Text) : Option Text := Keyed.find? key m.entries

def contains (m : PropertyMap) (key : Text) : Bool := (m.get? key).isSome

def insert (m : PropertyMap) (key value : Text) : PropertyMap :=
  ⟨Keyed.put key value m.entries, Keyed.nodup_keys_put m.nodup_keys key value⟩

/-- The entries of the second map, inserted in order into the first. -/
def update (m other : PropertyMap) : PropertyMap :=
  ⟨Keyed.putAll m.entries other.entries, Keyed.nodup_keys_putAll m.nodup_keys other.entries⟩

def ofPairs (pairs : List (Text × Text)) : PropertyMap :=
  ⟨Keyed.putAll [] pairs, Keyed.nodup_keys_putAll (by simp) pairs⟩

theorem get?_insert (m : PropertyMap) (key value other : Text) :
    (m.insert key value).get? other = if key = other then some value else m.get? other :=
  Keyed.find?_put key other value m.entries

theorem keys_insert (m : PropertyMap) (key value : Text) :
    (m.insert key value).keys = if key ∈ m.keys then m.keys else m.keys ++ [key] := by
  split
  · exact Keyed.keys_put_of_mem ‹_›
  · exact Keyed.keys_put_of_not_mem ‹_›

theorem get?_update (m other : PropertyMap) (key : Text) :
    (m.update other).get? key = (other.get? key).or (m.get? key) := by
  rw [get?, update, Keyed.find?_putAll, Keyed.find?_reverse other.nodup_keys]
  rfl

theorem get?_ofPairs (pairs : List (Text × Text)) (key : Text) :
    (ofPairs pairs).get? key = Keyed.find? key pairs.reverse := by
  rw [get?, ofPairs, Keyed.find?_putAll]
  exact Option.or_none

theorem ext_entries {m n : PropertyMap} (h : m.entries = n.entries) : m = n := by
  cases m
  cases n
  cases h
  rfl

theorem entries_foldl_insert :
    ∀ (pairs : List (Text × Text)) (m : PropertyMap),
      (pairs.foldl (fun m p => m.insert p.1 p.2) m).entries = Keyed.putAll m.entries pairs
  | [], _ => rfl
  | p :: pairs, m => entries_foldl_insert pairs (m.insert p.1 p.2)

/-- The map of some pairs is what comes of inserting them in turn. -/
theorem ofPairs_eq_foldl (pairs : List (Text × Text)) :
    ofPairs pairs = pairs.foldl (fun m p => m.insert p.1 p.2) ∅ :=
  ext_entries (entries_foldl_insert pairs ∅).symm

theorem get?_empty (key : Text) : get? ∅ key = none := rfl

theorem contains_iff {m : PropertyMap} {key : Text} : m.contains key ↔ key ∈ m.keys :=
  Keyed.find?_isSome_iff

theorem get?_eq_none_iff {m : PropertyMap} {key : Text} : m.get? key = none ↔ key ∉ m.keys := by
  rw [← contains_iff, contains, Bool.not_eq_true, Option.isSome_eq_false_iff,
    Option.isNone_iff_eq_none]

end PropertyMap

end PropertyLayers
