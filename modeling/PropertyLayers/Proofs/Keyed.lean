import Mathlib.Data.List.Basic
import PropertyLayers.Keyed
import PropertyLayers.Text.Basic

/-!
# Entries of keyed lists

Entries that are found or put are entries (`mem_of_find?`, `mem_put`), and a list that holds each
key once is known from its keys and what is found under them (`eq_filterMap_find?`). Lists that are
put one after the other come to the keys of all (`keys_putAll`), under which the last list that
holds a key counts (`find?_putAll_flatten`).
-/

namespace PropertyLayers.Keyed

section

variable {κ α : Type} [DecidableEq κ]

theorem mem_of_find? {key : κ} {value : α} :
    ∀ {entries : List (κ × α)}, find? key entries = some value → (key, value) ∈ entries
  | (k, v) :: rest, h => by
    by_cases hk : k = key
    · simp only [find?, hk, if_true, Option.some.injEq] at h
      simp [hk, h]
    · rw [find?, if_neg hk] at h
      exact List.mem_cons_of_mem _ (mem_of_find? h)

theorem mem_put {key : κ} {value : α} {entry : κ × α} :
    ∀ {entries : List (κ × α)}, entry ∈ put key value entries →
      entry = (key, value) ∨ entry ∈ entries
  | [], h => .inl (List.mem_singleton.mp h)
  | (k, v) :: rest, h => by
    by_cases hk : k = key
    · rw [put, if_pos hk, List.mem_cons, hk] at h
      exact h.imp_right (List.mem_cons_of_mem _)
    · rw [put, if_neg hk, List.mem_cons] at h
      rcases h with rfl | h
      · exact .inr List.mem_cons_self
      · exact (mem_put h).imp_right (List.mem_cons_of_mem _)

theorem find?_of_mem :
    ∀ {entries : List (κ × α)}, (keys entries).Nodup →
      ∀ {entry : κ × α}, entry ∈ entries → find? entry.1 entries = some entry.2
  | (k, v) :: rest, h, entry, hm => by
    simp only [keys, List.map_cons, List.nodup_cons] at h
    rcases List.mem_cons.mp hm with rfl | hm
    · simp [find?]
    · have hne : k ≠ entry.1 := fun hk => h.1 (hk ▸ List.mem_map_of_mem hm)
      rw [find?, if_neg hne, find?_of_mem h.2 hm]

theorem eq_filterMap_find? {entries : List (κ × α)} (h : (keys entries).Nodup) :
    entries = (keys entries).filterMap fun key => (find? key entries).map (key, ·) := by
  have hself : ∀ entry ∈ entries,
      (find? entry.1 entries).map (entry.1, ·) = some entry := fun entry hm => by
    rw [find?_of_mem h hm, Option.map_some]
  rw [keys, List.filterMap_map]
  exact List.filterMap_some.symm.trans
    (List.filterMap_congr fun entry hm => (hself entry hm).symm)

/-! ## Entries sorted out by their values -/

variable {p : α → Bool}

theorem find?_filter (key : κ) :
    ∀ {entries : List (κ × α)}, (keys entries).Nodup →
      find? key (entries.filter fun entry => p entry.2) = (find? key entries).filter p
  | [], _ => rfl
  | (k, v) :: rest, h => by
    simp only [keys, List.map_cons, List.nodup_cons] at h
    have ih := find?_filter key h.2
    by_cases hk : k = key
    · subst hk
      rw [find?_eq_none_of_not_mem h.1] at ih
      by_cases hv : p v <;> simp [find?, hv, ih, Option.filter]
    · by_cases hv : p v <;> simp [find?, hv, hk, ih]

theorem keys_filter {entries : List (κ × α)} (h : (keys entries).Nodup) :
    keys (entries.filter fun entry => p entry.2) =
      (keys entries).filter fun key => ((find? key entries).filter p).isSome := by
  rw [keys, keys, List.filter_map]
  refine congrArg _ (List.filter_congr fun entry hm => ?_)
  rw [Function.comp_apply, find?_of_mem h hm]
  by_cases hv : p entry.2 <;> simp [hv, Option.filter]

/-! ## Lists put one after the other -/

theorem find?_reverse_flatten {key : κ} :
    ∀ {lists : List (List (κ × α))}, (∀ list ∈ lists, (keys list).Nodup) →
      find? key lists.flatten.reverse = lists.reverse.findSome? (find? key)
  | [], _ => rfl
  | list :: lists, h => by
    obtain ⟨hlist, hlists⟩ := List.forall_mem_cons.mp h
    rw [List.flatten_cons, List.reverse_append, find?_append, find?_reverse_flatten hlists,
      find?_reverse hlist, List.reverse_cons, List.findSome?_append]
    simp

/-- Of lists that hold each key once, the last one that holds the key counts. -/
theorem find?_putAll_flatten {key : κ} {entries : List (κ × α)} {lists : List (List (κ × α))}
    (h : ∀ list ∈ lists, (keys list).Nodup) :
    find? key (putAll entries lists.flatten) =
      (lists.reverse.findSome? (find? key)).or (find? key entries) := by
  rw [find?_putAll, find?_reverse_flatten h]

end

/-- Keys that are put come behind those that are there, in the order in which they first come. -/
theorem keys_putAll {α : Type} :
    ∀ entries more : List (Text × α),
      keys (putAll entries more) = keys entries ++ ((keys more).removeAll (keys entries)).eraseDups
  | entries, [] => by simp [putAll, keys, List.removeAll]
  | entries, (k, v) :: more => by
    have ih := keys_putAll (put k v entries) more
    rw [keys_put] at ih
    refine ih.trans ?_
    by_cases hk : k ∈ keys entries
    · simp [hk, List.removeAll, keys]
    · have hfilter : (keys more).removeAll (keys entries ++ [k]) =
          ((keys more).removeAll (keys entries)).filter fun other => !other == k := by
        rw [List.removeAll, List.removeAll, List.filter_filter]
        refine List.filter_congr fun other _ => Bool.eq_iff_iff.mpr ?_
        simp [and_comm]
      rw [if_neg hk, hfilter, List.append_assoc]
      simp [hk, List.removeAll, keys, List.eraseDups_cons]

end PropertyLayers.Keyed
