import PropertyLayers.Proofs.Configuration.Anchored
import PropertyLayers.Proofs.Keyed

/-!
# Layers over each other

Of each key the first of three layers that sets it has the last word (`Layers.value?`): overrides,
then the project, then the user. Laid over each other the layers come to these values
(`Layers.merge_eq_table`), so a value under one that counts may be anything
(`Layers.AgreeWhereShown.table_eq`). Search paths in files are read as paths seen from the directory
of the file, which leaves an absolute one as it is written if it is written as paths are
(`Layers.Spelled.table_eq`).
-/

namespace PropertyLayers

/-- A relative path is put under the directory, and an absolute one stays as it is written. -/
def Layer.placePath (base : FilePath) : Value → Value
  | .text path =>
    if (FilePath.ofText path).anchor = .relative then .text (base ++ FilePath.ofText path).toText
    else .text path
  | value => value

/-- The absolute paths among the search paths are written as paths are. -/
def Layer.Spelled (value : Value) : Prop :=
  ∀ items, value = .list items → ∀ path, .text path ∈ items →
    (FilePath.ofText path).anchor ≠ .relative → (FilePath.ofText path).toText = path

/-- The settings in a configuration file, and the directory of the file. -/
structure Declared where
  directory : FilePath
  table : Table

namespace Declared

def keys (declared? : Option Declared) : List Text :=
  declared?.elim [] fun declared => Keyed.keys declared.table

/-- The value that a file gives to a key. -/
def raw? (declared? : Option Declared) (key : Text) : Option Value :=
  declared?.bind fun declared => Keyed.find? key declared.table

/-- The value that a file gives to a key, with search paths as they look from its directory. -/
def value? (look : FilePath → Value → Value) (declared? : Option Declared) (key : Text) :
    Option Value :=
  declared?.bind fun declared =>
    (Keyed.find? key declared.table).map (Layer.withPaths (look declared.directory) key)

end Declared

/-- Where settings come from, the lowest first. -/
structure Layers where
  user : Option Declared
  project : Option Declared
  overrides : Table

namespace Layers

/-- The value of an override. One that is null is none. -/
def override? (layers : Layers) (key : Text) : Option Value :=
  (Keyed.find? key layers.overrides).filter (!·.isNull)

/-- The value that counts. -/
def value? (look : FilePath → Value → Value) (layers : Layers) (key : Text) : Option Value :=
  (layers.override? key).or
    ((Declared.value? look layers.project key).or (Declared.value? look layers.user key))

/-- The keys in the order in which they first come, from the lowest layer up. -/
def keys (layers : Layers) : List Text :=
  (Declared.keys layers.user ++ Declared.keys layers.project
    ++ (Keyed.keys layers.overrides).filter fun key => (layers.override? key).isSome).eraseDups

/-- What the layers come to. -/
def table (look : FilePath → Value → Value) (layers : Layers) : Table :=
  layers.keys.filterMap fun key => (layers.value? look key).map (key, ·)

/-- Overrides are a table, and search paths in files are lists. -/
structure WellFormed (layers : Layers) : Prop where
  overrides : (Keyed.keys layers.overrides).Nodup
  user : ∀ declared ∈ layers.user, Layer.ListsPaths declared.table
  project : ∀ declared ∈ layers.project, Layer.ListsPaths declared.table

/-- The second layers differ from the first in nothing but values that a higher layer hides. -/
structure AgreeWhereShown (layers layers' : Layers) : Prop where
  overrides : layers'.overrides = layers.overrides
  userKeys : Declared.keys layers'.user = Declared.keys layers.user
  projectKeys : Declared.keys layers'.project = Declared.keys layers.project
  project : ∀ key, layers.override? key = none →
    Declared.value? Layer.anchorPath layers'.project key =
      Declared.value? Layer.anchorPath layers.project key
  user : ∀ key, layers.override? key = none → Declared.raw? layers.project key = none →
    Declared.value? Layer.anchorPath layers'.user key =
      Declared.value? Layer.anchorPath layers.user key

/-- The absolute paths that count in a file are written as paths are. -/
def Spelled (layers : Layers) : Prop :=
  layers.override? Layer.searchPathsKey = none →
    ∀ value ∈ (Declared.raw? layers.project Layer.searchPathsKey).or
      (Declared.raw? layers.user Layer.searchPathsKey), Layer.Spelled value

end Layers

/-! ## Ways to look at paths -/

theorem FilePath.append_of_anchored {base path : FilePath} (h : path.anchor ≠ .relative) :
    base ++ path = path := by
  rcases path with ⟨_ | _ | _, segments⟩
  · exact absurd rfl h
  all_goals rfl

theorem Layer.withPaths_anchorPath_eq {base : FilePath} {value : Value} (h : Spelled value) :
    withPaths (anchorPath base) searchPathsKey value =
      withPaths (placePath base) searchPathsKey value := by
  cases value
  case list items =>
    rw [withPaths_searchPaths, withPaths_searchPaths]
    refine congrArg Value.list (List.map_congr_left fun item hm => ?_)
    cases item
    case text path =>
      rw [anchorPath, placePath]
      split
      · rfl
      · next habsolute =>
        rw [FilePath.append_of_anchored habsolute, h items rfl path hm habsolute]
    all_goals rfl
  all_goals rfl

namespace Declared

variable {look : FilePath → Value → Value} {declared? : Option Declared} {key : Text}

theorem value?_eq_none_iff : value? look declared? key = none ↔ raw? declared? key = none := by
  cases declared? <;> simp [value?, raw?]

theorem value?_of_ne (h : key ≠ Layer.searchPathsKey) :
    value? look declared? key = raw? declared? key := by
  rcases declared? with _ | declared
  · rfl
  · rcases hfind : Keyed.find? key declared.table <;>
      simp [value?, raw?, hfind, Layer.withPaths_of_ne h]

theorem value?_anchorPath_eq
    (h : ∀ value ∈ raw? declared? Layer.searchPathsKey, Layer.Spelled value) :
    value? Layer.anchorPath declared? Layer.searchPathsKey =
      value? Layer.placePath declared? Layer.searchPathsKey := by
  rcases declared? with _ | declared
  · rfl
  · rcases hfind : Keyed.find? Layer.searchPathsKey declared.table with _ | value
    · simp [value?, hfind]
    · have hspelled : Layer.Spelled value := h value hfind
      simp [value?, hfind, Layer.withPaths_anchorPath_eq hspelled]

end Declared

namespace Layers

variable {layers layers' : Layers}

/-- Where absolute search paths are written as paths are, they stay as they are written. -/
theorem Spelled.table_eq (h : layers.Spelled) :
    layers.table Layer.anchorPath = layers.table Layer.placePath := by
  have hvalue : ∀ key, layers.value? Layer.anchorPath key = layers.value? Layer.placePath key := by
    intro key
    rw [Layers.value?, Layers.value?]
    by_cases hkey : key = Layer.searchPathsKey
    · subst hkey
      rcases ho : layers.override? Layer.searchPathsKey with _ | value
      · rw [Declared.value?_anchorPath_eq fun value hv => h ho value (by rw [hv]; rfl)]
        rcases hp : Declared.value? Layer.placePath layers.project Layer.searchPathsKey with _ | _
        · have hnone := Declared.value?_eq_none_iff.mp hp
          rw [Declared.value?_anchorPath_eq fun value hv => h ho value (by rw [hnone]; exact hv)]
        · rfl
      · rfl
    · simp only [Declared.value?_of_ne hkey]
  simp only [table, hvalue]

theorem AgreeWhereShown.table_eq (h : AgreeWhereShown layers layers') :
    layers'.table Layer.anchorPath = layers.table Layer.anchorPath := by
  have hoverride : ∀ key, layers'.override? key = layers.override? key := fun key => by
    rw [override?, override?, h.overrides]
  have hvalue : ∀ key, layers'.value? Layer.anchorPath key =
      layers.value? Layer.anchorPath key := fun key => by
    rw [Layers.value?, Layers.value?, hoverride]
    rcases ho : layers.override? key with _ | value
    · rw [h.project key ho]
      rcases hp : Declared.value? Layer.anchorPath layers.project key with _ | value
      · rw [h.user key ho (Declared.value?_eq_none_iff.mp hp)]
      · rfl
    · rfl
  have hkeys : layers'.keys = layers.keys := by
    simp only [Layers.keys, h.userKeys, h.projectKeys, h.overrides, hoverride]
  simp only [table, hkeys, hvalue]

end Layers

/-! ## Merging -/

namespace Layer

theorem foldl_putAll : ∀ (layers : List Table) (below : Table),
    layers.foldl Keyed.putAll below = Keyed.putAll below layers.flatten
  | [], _ => rfl
  | layer :: rest, below => by
    rw [List.foldl_cons, foldl_putAll rest, List.flatten_cons, Keyed.putAll, Keyed.putAll,
      Keyed.putAll, List.foldl_append]

/-- Layers come to the keys of all, each with the value in the last layer that holds it. -/
theorem merge_eq_filterMap {layers : List Table} (h : ∀ layer ∈ layers, (Keyed.keys layer).Nodup) :
    merge layers = (layers.flatMap Keyed.keys).eraseDups.filterMap fun key =>
      (layers.reverse.findSome? (Keyed.find? key)).map (key, ·) := by
  have hmerge : merge layers = Keyed.putAll [] layers.flatten := foldl_putAll layers []
  have hnodup : (Keyed.keys (merge layers)).Nodup := by
    rw [hmerge]
    exact Keyed.nodup_keys_putAll (by simp) _
  have hflatten : Keyed.keys layers.flatten = layers.flatMap Keyed.keys := List.map_flatten
  have hkeys : Keyed.keys (merge layers) = (layers.flatMap Keyed.keys).eraseDups := by
    rw [hmerge, Keyed.keys_putAll, hflatten]
    simp [List.removeAll]
  have hfind : ∀ key, Keyed.find? key (merge layers) =
      layers.reverse.findSome? (Keyed.find? key) := by
    intro key
    rw [hmerge, Keyed.find?_putAll_flatten h]
    simp [Keyed.find?]
  rw [Keyed.eq_filterMap_find? hnodup, hkeys]
  simp only [hfind]

end Layer

/-- The layer is what the file declares, seen from its directory. -/
structure Declared.SeenAs (declared? : Option Declared) (layer? : Option Table) : Prop where
  nodup : ∀ layer ∈ layer?.toList, (Keyed.keys layer).Nodup
  keys : layer?.toList.flatMap Keyed.keys = Declared.keys declared?
  find? : ∀ key, layer?.bind (Keyed.find? key) =
    Declared.value? Layer.anchorPath declared? key

theorem Declared.seenAs_none : SeenAs none none := ⟨by simp, rfl, fun _ => rfl⟩

theorem Declared.exists_seenAs {declared : Declared} (hkeys : (Keyed.keys declared.table).Nodup)
    (hlists : Layer.ListsPaths declared.table) :
    ∃ layer, Layer.anchorSearchPaths declared.directory declared.table = .ok layer
      ∧ SeenAs (some declared) (some layer) := by
  obtain ⟨layer, hlayer, hsame, hfind⟩ := Layer.exists_anchorSearchPaths declared.directory hlists
  refine ⟨layer, hlayer, ?_, ?_, hfind⟩
  · simpa [hsame] using hkeys
  · simpa [Declared.keys] using hsame

theorem findSome?_reverse_toList {α β : Type} (f : α → Option β) (a? : Option α) :
    a?.toList.reverse.findSome? f = a?.bind f := by
  cases a? <;> simp

/-- What the layers come to when they are laid over each other. -/
theorem Layers.merge_eq_table {layers : Layers} {user? project? : Option Table}
    (huser : Declared.SeenAs layers.user user?) (hproject : Declared.SeenAs layers.project project?)
    (hoverrides : (Keyed.keys layers.overrides).Nodup) :
    Layer.merge (user?.toList ++ project?.toList ++ [Layer.withoutNulls layers.overrides]) =
      layers.table Layer.anchorPath := by
  have hset : ∀ key, Keyed.find? key (Layer.withoutNulls layers.overrides) =
      layers.override? key := fun key =>
    Keyed.find?_filter (p := fun value : Value => !value.isNull) key hoverrides
  have hsetKeys : Keyed.keys (Layer.withoutNulls layers.overrides) =
      (Keyed.keys layers.overrides).filter fun key => (layers.override? key).isSome :=
    Keyed.keys_filter (p := fun value : Value => !value.isNull) hoverrides
  have hnodup : ∀ layer ∈ user?.toList ++ project?.toList ++ [Layer.withoutNulls layers.overrides],
      (Keyed.keys layer).Nodup := by
    intro layer hm
    simp only [List.mem_append, List.mem_singleton] at hm
    rcases hm with (hm | hm) | rfl
    · exact huser.nodup layer hm
    · exact hproject.nodup layer hm
    · rw [hsetKeys]
      exact hoverrides.filter _
  have hvalue : ∀ key,
      (user?.toList ++ project?.toList ++ [Layer.withoutNulls layers.overrides]).reverse.findSome?
        (Keyed.find? key) = layers.value? Layer.anchorPath key := by
    intro key
    rw [Layers.value?, ← hset, ← hproject.find?, ← huser.find?, List.reverse_append,
      List.reverse_append, List.findSome?_append, List.findSome?_append,
      findSome?_reverse_toList, findSome?_reverse_toList]
    simp
  rw [Layer.merge_eq_filterMap hnodup, List.flatMap_append, List.flatMap_append, huser.keys,
    hproject.keys, List.flatMap_singleton, hsetKeys]
  simp only [hvalue]
  rfl

end PropertyLayers
