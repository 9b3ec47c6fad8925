/-!
# Keyed lists

Lists of pairs in the order in which their keys first came. Putting a key that is there keeps its
place and changes its value (`keys_put`, `find?_put`), so a list built by putting holds each key
once (`nodup_keys_put`). Of the pairs put one after the other the last of a key counts
(`find?_putAll`).
-/

namespace PropertyLayers.Keyed

variable {κ α : Type} [DecidableEq κ]

abbrev keys (entries : List (κ × α)) : List κ := entries.map Prod.fst

/-- The value at the first entry with this key. -/
def find? (key : κ) : List (κ × α) → Option α
  | [] => none
  | (k, v) :: rest => if k = key then some v else find? key rest

/-- A new key goes to the end; a key that is there keeps its place. -/
def put (key : κ) (value : α) : List (κ × α) → List (κ × α)
  | [] => [(key, value)]
  | (k, v) :: rest => if k = key then (k, value) :: rest else (k, v) :: put key value rest

def putAll (entries more : List (κ × α)) : List (κ × α) :=
  more.foldl (fun acc entry => put entry.1 entry.2 acc) entries

theorem keys_put_of_mem {key : κ} {value : α} :
    ∀ {entries : List (κ × α)}, key ∈ keys entries → keys (put key value entries) = keys entries
  | (k, v) :: rest, h => by
    simp only [put]
    split
    · rfl
    · rename_i hk
      simp only [keys, List.map_cons, List.mem_cons] at h
      simp [keys, keys_put_of_mem (h.resolve_left (Ne.symm hk))]

theorem keys_put_of_not_mem {key : κ} {value : α} :
    ∀ {entries : List (κ × α)}, key ∉ keys entries →
      keys (put key value entries) = keys entries ++ [key]
  | [], _ => rfl
  | (k, v) :: rest, h => by
    simp only [keys, List.map_cons, List.mem_cons, not_or] at h
    simp [put, Ne.symm h.1, keys, keys_put_of_not_mem h.2]

theorem keys_put (key : κ) (value : α) (entries : List (κ × α)) :
    keys (put key value entries) =
      if key ∈ keys entries then keys entries else keys entries ++ [key] := by
  split
  · exact keys_put_of_mem ‹_›
  · exact keys_put_of_not_mem ‹_›

theorem find?_put (key other : κ) (value : α) :
    ∀ entries : List (κ × α),
      find? other (put key value entries) = if key = other then some value else find? other entries
  | [] => by simp [put, find?]
  | (k, v) :: rest => by
    have ih := find?_put key other value rest
    by_cases hk : k = key
    · subst hk
      by_cases ho : k = other <;> simp [put, find?, ho]
    · by_cases ho : k = other
      · subst ho
        simp [put, find?, hk, Ne.symm hk]
      · simp [put, find?, hk, ho, ih]

theorem nodup_keys_put {entries : List (κ × α)} (h : (keys entries).Nodup) (key : κ) (value : α) :
    (keys (put key value entries)).Nodup := by
  rw [keys_put]
  split
  · exact h
  · rename_i hk
    refine List.nodup_append.mpr ⟨h, by simp, ?_⟩
    intro a ha b hb
    simp only [List.mem_singleton] at hb
    exact fun hab => hk (hb ▸ hab ▸ ha)

theorem nodup_keys_putAll {entries : List (κ × α)} (h : (keys entries).Nodup) :
    ∀ more : List (κ × α), (keys (putAll entries more)).Nodup
  | [] => h
  | (k, v) :: more => nodup_keys_putAll (nodup_keys_put h k v) more

theorem find?_isSome_iff {key : κ} :
    ∀ {entries : List (κ × α)}, (find? key entries).isSome ↔ key ∈ keys entries
  | [] => by simp [find?]
  | (k, v) :: rest => by
    by_cases h : k = key
    · simp [find?, h]
    · simp only [find?, h, if_false, find?_isSome_iff, keys, List.map_cons, List.mem_cons,
        Ne.symm h, false_or]

theorem find?_append (key : κ) (more : List (κ × α)) :
    ∀ entries, find? key (entries ++ more) = (find? key entries).or (find? key more)
  | [] => rfl
  | (k, v) :: rest => by
    by_cases h : k = key
    · simp [find?, h]
    · simp [find?, h, find?_append key more rest]

theorem find?_eq_none_of_not_mem {key : κ} {entries : List (κ × α)} (h : key ∉ keys entries) :
    find? key entries = none := by
  rw [← Option.not_isSome_iff_eq_none, find?_isSome_iff]
  exact h

/-- Where each key stands once, the order does not matter to look one up. -/
theorem find?_reverse {key : κ} :
    ∀ {entries : List (κ × α)}, (keys entries).Nodup →
      find? key entries.reverse = find? key entries
  | [], _ => rfl
  | (k, v) :: rest, h => by
    simp only [keys, List.map_cons, List.nodup_cons] at h
    rw [List.reverse_cons, find?_append, find?_reverse h.2]
    by_cases hk : k = key
    · subst hk
      simp [find?, find?_eq_none_of_not_mem h.1]
    · simp [find?, hk]

theorem find?_putAll (key : κ) :
    ∀ entries more : List (κ × α),
      find? key (putAll entries more) = (find? key more.reverse).or (find? key entries)
  | entries, [] => rfl
  | entries, (k, v) :: more => by
    have ih := find?_putAll key (put k v entries) more
    rw [find?_put] at ih
    rw [List.reverse_cons, find?_append, Option.or_assoc]
    refine ih.trans (congrArg _ ?_)
    by_cases hk : k = key <;> simp [find?, hk]

end PropertyLayers.Keyed
