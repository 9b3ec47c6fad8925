import PropertyLayers.Proofs.Keyed
import PropertyLayers.PropertyMap

/-!
# Property maps put together

A property map is known from its keys and from what it holds under them (`ext_get?`). To update a
map with another one leaves its keys in place and puts the new ones behind them (`keys_update`), so
a key that is inserted last may as well be inserted into the second map (`insert_update`).
-/

namespace PropertyLayers.PropertyMap

variable {m n : PropertyMap}

theorem ext_get? (hkeys : m.keys = n.keys) (h : ∀ key, m.get? key = n.get? key) : m = n := by
  have hfind : ∀ key, Keyed.find? key m.entries = Keyed.find? key n.entries := h
  have hentries := Keyed.eq_filterMap_find? m.nodup_keys
  simp only [hfind] at hentries
  rw [show Keyed.keys m.entries = Keyed.keys n.entries from hkeys,
    ← Keyed.eq_filterMap_find? n.nodup_keys] at hentries
  exact ext_entries hentries

theorem eraseDups_of_nodup : ∀ {keys : List Text}, keys.Nodup → keys.eraseDups = keys
  | [], _ => rfl
  | key :: keys, h => by
    obtain ⟨hkey, hkeys⟩ := List.nodup_cons.mp h
    have hfilter : (keys.filter fun other => !other == key) = keys :=
      List.filter_eq_self.mpr fun other hm => by
        have hne : other ≠ key := fun he => hkey (he ▸ hm)
        simpa using hne
    rw [List.eraseDups_cons, hfilter, eraseDups_of_nodup hkeys]

/-- The keys of the second map that are new come behind those of the first. -/
theorem keys_update (m n : PropertyMap) :
    (m.update n).keys = m.keys ++ n.keys.filter fun key => key ∉ m.keys := by
  have hnew : n.keys.removeAll m.keys = n.keys.filter fun key => key ∉ m.keys := by
    refine List.filter_congr fun key _ => ?_
    simp
  have hnodup : (n.keys.filter fun key => key ∉ m.keys).Nodup := n.nodup_keys.filter _
  rw [← eraseDups_of_nodup hnodup, ← hnew]
  exact Keyed.keys_putAll m.entries n.entries

theorem mem_keys_update {key : Text} : key ∈ (m.update n).keys ↔ key ∈ m.keys ∨ key ∈ n.keys := by
  rw [keys_update, List.mem_append, List.mem_filter]
  by_cases h : key ∈ m.keys <;> simp [h]

theorem insert_update (m n : PropertyMap) (key value : Text) :
    (m.update n).insert key value = m.update (n.insert key value) := by
  refine ext_get? ?_ fun other => ?_
  · rw [keys_insert, keys_update m (n.insert key value), keys_insert]
    by_cases hn : key ∈ n.keys
    · rw [if_pos (mem_keys_update.mpr (.inr hn)), if_pos hn, keys_update]
    · rw [if_neg hn, List.filter_append]
      by_cases hm : key ∈ m.keys
      · rw [if_pos (mem_keys_update.mpr (.inl hm)), keys_update]
        simp [hm]
      · rw [if_neg (by simp [mem_keys_update, hm, hn]), keys_update]
        simp [hm]
  · rw [get?_insert, get?_update, get?_update, get?_insert]
    split <;> simp

theorem update_empty (m : PropertyMap) : m.update ∅ = m := rfl

theorem update_foldl_insert (m : PropertyMap) :
    ∀ (pairs : List (Text × Text)) (n : PropertyMap),
      m.update (pairs.foldl (fun n p => n.insert p.1 p.2) n) =
        pairs.foldl (fun n p => n.insert p.1 p.2) (m.update n)
  | [], _ => rfl
  | p :: pairs, n => by
    rw [List.foldl_cons, List.foldl_cons, update_foldl_insert m pairs, insert_update]

theorem keys_ofPairs (pairs : List (Text × Text)) :
    (ofPairs pairs).keys = (Keyed.keys pairs).eraseDups := by
  refine (Keyed.keys_putAll [] pairs).trans ?_
  simp [List.removeAll]

end PropertyLayers.PropertyMap
