import PropertyLayers.Proofs.Environment.Failed

/-!
# Runs of operations

What can be done to an environment, one operation after the other and whether each succeeds or
fails. An operation leaves names distinct, and the sources that it does not name it leaves in their
order and with their properties (`keeps_perform`).
-/

namespace PropertyLayers

/-- What can be done to an environment whose sources have their properties to themselves: where
sources share mappings, it is what the operations come to as long as none is shared
(`SharedEnvironment.Apart`). -/
inductive Operation where
  | addHighest (source : Source)
  | addLowest (source : Source)
  /-- The source held under the name is added again, on top. -/
  | readdHighest (name : Text)
  | readdLowest (name : Text)
  | remove (name : Text)
  /-- The properties of the source held under the name are changed. -/
  | write (name : Text) (change : PropertyMap → PropertyMap)
  | applyLocations (loader : Loader) (encoding : Text) (locations : List Text)
  | applyInlined (entries : List Text)
  | applyMerged (loader : Loader) (encoding : Text) (merged : MergedSources)

namespace Environment

def perform (env : Environment) : Operation → Environment
  | .addHighest source => env.addHighest source
  | .addLowest source => env.addLowest source
  | .readdHighest name => ((env.get? name).map env.addHighest).getD env
  | .readdLowest name => ((env.get? name).map env.addLowest).getD env
  | .remove name => env.remove name
  | .write name change => env.modify name change
  | .applyLocations loader encoding locations =>
    (env.applyLocations loader encoding locations).environment
  | .applyInlined entries => (env.applyInlined entries).environment
  | .applyMerged loader encoding merged => (env.applyMerged loader encoding merged).environment

def performAll (env : Environment) (operations : List Operation) : Environment :=
  operations.foldl perform env

/-- The names that the operation is about; of locations, those the loader is asked for. -/
def named (env : Environment) : Operation → List Text
  | .addHighest source => [source.name]
  | .addLowest source => [source.name]
  | .readdHighest name => [name]
  | .readdLowest name => [name]
  | .remove name => [name]
  | .write name _ => [name]
  | .applyLocations loader encoding locations =>
    (env.applyLocations loader encoding locations).asked
  | .applyInlined _ => [inlinedName]
  | .applyMerged loader encoding merged =>
    inlinedName :: (env.applyLocations loader encoding merged.locations).asked

/-- The sources of other names are the same and in the same order. -/
def KeepsOthers (names : List Text) (env after : Environment) : Prop :=
  othersThan names after.sources = othersThan names env.sources

/-- A step to distinct names that is about these names alone. -/
structure Keeps (names : List Text) (env after : Environment) : Prop where
  distinct : after.names.Nodup
  others : KeepsOthers names env after

variable {env mid after : Environment} {names : List Text}

theorem keeps_refl (h : env.names.Nodup) (names : List Text) : Keeps names env env := ⟨h, rfl⟩

theorem Keeps.trans (h : Keeps names env mid) (h' : Keeps names mid after) :
    Keeps names env after :=
  ⟨h'.distinct, h'.others.trans h.others⟩

theorem Keeps.mono {more : List Text} (h : Keeps names env after) (hs : names ⊆ more) :
    Keeps more env after := by
  refine ⟨h.distinct, ?_⟩
  rw [KeepsOthers, ← othersThan_othersThan_of_subset hs, h.others,
    othersThan_othersThan_of_subset hs]

theorem keeps_remove (h : env.names.Nodup) (name : Text) : Keeps [name] env (env.remove name) := by
  refine ⟨nodup_names_remove h name, ?_⟩
  rw [KeepsOthers, sources_remove_of_nodup h, othersThan_othersThan_of_subset (List.Subset.refl _)]

theorem keeps_addHighest (h : env.names.Nodup) (source : Source) :
    Keeps [source.name] env (env.addHighest source) :=
  ⟨nodup_names_addHighest h source,
    (othersThan_cons_of_mem List.mem_cons_self).trans (keeps_remove h source.name).others⟩

theorem keeps_addLowest (h : env.names.Nodup) (source : Source) :
    Keeps [source.name] env (env.addLowest source) := by
  have hsource : othersThan [source.name] [source] = [] := othersThan_eq_nil (by simp)
  refine ⟨nodup_names_addLowest h source, ?_⟩
  rw [KeepsOthers, sources_addLowest_of_nodup h, othersThan_append, hsource, List.append_nil,
    othersThan_othersThan_of_subset (List.Subset.refl _)]

theorem keeps_modify (h : env.names.Nodup) (name : Text) (change : PropertyMap → PropertyMap) :
    Keeps [name] env (env.modify name change) := by
  refine ⟨by rw [names_modify]; exact h, ?_⟩
  have hgo : ∀ sources : List Source,
      othersThan [name] (modify.go name change sources) = othersThan [name] sources := by
    intro sources
    induction sources with
    | nil => rfl
    | cons s rest ih =>
      rw [modify.go]
      by_cases hs : s.name = name
      · have hmem : s.name ∈ [name] := List.mem_singleton.mpr hs
        rw [if_pos hs, othersThan_cons_of_mem hmem]
        exact othersThan_cons_of_mem hmem
      · have hmem : s.name ∉ [name] := mt List.mem_singleton.mp hs
        rw [if_neg hs, othersThan_cons_of_not_mem hmem, othersThan_cons_of_not_mem hmem, ih]
  exact hgo env.sources

theorem keeps_addAllHighest :
    ∀ (sources : List Source) {env : Environment}, env.names.Nodup →
      Keeps (sources.map Source.name) env (env.addAllHighest sources)
  | [], _, h => keeps_refl h []
  | source :: rest, _, h => by
    have first := keeps_addHighest h source
    have later := keeps_addAllHighest rest first.distinct
    exact (first.mono (by simp)).trans (later.mono (by simp))

theorem keeps_applyLocations (h : env.names.Nodup) (loader : Loader) (encoding : Text)
    (locations : List Text) :
    Keeps (env.applyLocations loader encoding locations).asked env
      (env.applyLocations loader encoding locations).environment := by
  rcases hf : (env.applyLocations loader encoding locations).failure? with _ | failure
  · obtain ⟨sources, hl⟩ := loads_of_applyLocations hf
    rw [applyLocations_eq_of_loads hl]
    exact keeps_addAllHighest sources h
  · rw [environment_of_applyLocations_failure hf]
    exact keeps_refl h _

theorem keeps_overlayInlined (h : env.names.Nodup) (properties : PropertyMap) :
    Keeps [inlinedName] env (env.overlayInlined properties) := by
  unfold overlayInlined
  split
  · exact keeps_addHighest h ⟨inlinedName, properties⟩
  · exact keeps_modify h inlinedName (·.update properties)

theorem keeps_applyInlined (h : env.names.Nodup) (entries : List Text) :
    Keeps [inlinedName] env (env.applyInlined entries).environment := by
  unfold applyInlined
  split
  · exact keeps_refl h _
  · split
    · exact keeps_overlayInlined h _
    · exact keeps_refl h _

theorem keeps_applyMerged (h : env.names.Nodup) (loader : Loader) (encoding : Text)
    (merged : MergedSources) :
    Keeps (inlinedName :: (env.applyLocations loader encoding merged.locations).asked) env
      (env.applyMerged loader encoding merged).environment := by
  have hlocated := (keeps_applyLocations h loader encoding merged.locations).mono
    (List.subset_cons_self inlinedName _)
  unfold applyMerged
  dsimp only
  split
  · exact hlocated
  · exact hlocated.trans
      ((keeps_applyInlined hlocated.distinct merged.properties).mono (by simp))

/-- An operation leaves names distinct, and leaves alone what it does not name. -/
theorem keeps_perform (h : env.names.Nodup) (operation : Operation) :
    Keeps (env.named operation) env (env.perform operation) := by
  have readd : ∀ {name : Text} {f : Source → Environment},
      (∀ source : Source, Keeps [source.name] env (f source)) →
        Keeps [name] env (((env.get? name).map f).getD env) := by
    intro name f hf
    rcases hg : env.get? name with _ | s
    · exact keeps_refl h [name]
    · rw [← (mem_of_get? hg).2]
      exact hf s
  cases operation with
  | addHighest source => exact keeps_addHighest h source
  | addLowest source => exact keeps_addLowest h source
  | readdHighest name => exact readd (keeps_addHighest h)
  | readdLowest name => exact readd (keeps_addLowest h)
  | remove name => exact keeps_remove h name
  | write name change => exact keeps_modify h name change
  | applyLocations loader encoding locations =>
    exact keeps_applyLocations h loader encoding locations
  | applyInlined entries => exact keeps_applyInlined h entries
  | applyMerged loader encoding merged => exact keeps_applyMerged h loader encoding merged

/-- Two sources that differ in nothing but their names. -/
def twoSources : List Source := [⟨"base", .ofPairs [("k", "1")]⟩, ⟨"copy", .ofPairs [("k", "1")]⟩]

end Environment

end PropertyLayers
