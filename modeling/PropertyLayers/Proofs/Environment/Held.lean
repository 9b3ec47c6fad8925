import PropertyLayers.Proofs.Environment.Run

/-!
# What is held under a name

Every operation leaves what is held under a name that it does not name
(`get?_perform_of_not_mem_named`), whether it succeeds or fails and also where names are not
distinct.
-/

namespace PropertyLayers

namespace Environment

variable {env : Environment} {name other : Text}

theorem get?_remove_of_ne (h : other ≠ name) : (env.remove name).get? other = env.get? other := by
  rw [get?, sources_remove, get?]
  refine find?_eraseP fun s hs ho => h ?_
  have hs : s.name = name := by simpa using hs
  have ho : s.name = other := by simpa using ho
  exact ho.symm.trans hs

theorem get?_addHighest_of_ne {source : Source} (h : other ≠ source.name) :
    (env.addHighest source).get? other = env.get? other := by
  rw [get?_addHighest, if_neg h.symm]

theorem get?_addLowest_of_ne {source : Source} (h : other ≠ source.name) :
    (env.addLowest source).get? other = env.get? other := by
  have hsource : [source].find? (fun s => s.name = other) = none := by simpa using h.symm
  rw [get?, addLowest, List.find?_append, hsource, Option.or_none]
  exact get?_remove_of_ne h

/-- The source that is held under the name changes, and what is held under others does not. -/
theorem get?_modify (change : PropertyMap → PropertyMap) :
    (env.modify name change).get? other =
      if name = other then
        (env.get? other).map fun s => { s with properties := change s.properties }
      else env.get? other := by
  have hgo : ∀ sources : List Source,
      (modify.go name change sources).find? (fun s => s.name = other) =
        if name = other then
          (sources.find? fun s => s.name = other).map fun s =>
            { s with properties := change s.properties }
        else sources.find? fun s => s.name = other := by
    intro sources
    induction sources with
    | nil => simp [modify.go]
    | cons s rest ih =>
      rw [modify.go]
      by_cases hs : s.name = name
      · by_cases ho : name = other <;> simp [hs, ho]
      · rw [if_neg hs]
        by_cases ho : s.name = other
        · have hne : name ≠ other := fun h => hs (ho.trans h.symm)
          simp [ho, hne]
        · rw [List.find?_cons_of_neg (by simpa using ho),
            List.find?_cons_of_neg (by simpa using ho)]
          exact ih
  exact hgo env.sources

theorem get?_addAllHighest_of_not_mem {sources : List Source}
    (h : other ∉ sources.map Source.name) :
    (env.addAllHighest sources).get? other = env.get? other := by
  have hnone : (sources.reverse.find? fun s => s.name = other) = none := by
    refine List.find?_eq_none.mpr fun s hs ho => h (List.mem_map.mpr ⟨s, ?_, ?_⟩)
    · exact List.mem_reverse.mp hs
    · simpa using ho
  rw [get?_addAllHighest, hnone, Option.none_or]

theorem get?_applyLocations_of_not_mem {loader : Loader} {encoding : Text} {locations : List Text}
    (h : other ∉ (env.applyLocations loader encoding locations).asked) :
    (env.applyLocations loader encoding locations).environment.get? other = env.get? other := by
  rcases hf : (env.applyLocations loader encoding locations).failure? with _ | failure
  · obtain ⟨sources, hl⟩ := loads_of_applyLocations hf
    rw [applyLocations_eq_of_loads hl] at h ⊢
    exact get?_addAllHighest_of_not_mem h
  · rw [environment_of_applyLocations_failure hf]

theorem get?_overlayInlined_of_ne (h : other ≠ inlinedName) (properties : PropertyMap) :
    (env.overlayInlined properties).get? other = env.get? other := by
  unfold overlayInlined
  split
  · exact get?_addHighest_of_ne h
  · rw [get?_modify, if_neg h.symm]

theorem get?_applyInlined_of_ne (h : other ≠ inlinedName) (entries : List Text) :
    (env.applyInlined entries).environment.get? other = env.get? other := by
  unfold applyInlined
  split
  · rfl
  · split
    · exact get?_overlayInlined_of_ne h _
    · rfl

theorem get?_applyMerged_of_not_mem {loader : Loader} {encoding : Text} {merged : MergedSources}
    (h : other ≠ inlinedName)
    (hasked : other ∉ (env.applyLocations loader encoding merged.locations).asked) :
    (env.applyMerged loader encoding merged).environment.get? other = env.get? other := by
  rw [← get?_applyLocations_of_not_mem hasked, applyMerged]
  split
  · rfl
  · exact get?_applyInlined_of_ne h _

theorem get?_perform_of_not_mem_named {operation : Operation} (h : name ∉ env.named operation) :
    (env.perform operation).get? name = env.get? name := by
  have readd : ∀ {other : Text} {f : Source → Environment},
      (∀ source : Source, name ≠ source.name → (f source).get? name = env.get? name) →
        name ≠ other → (((env.get? other).map f).getD env).get? name = env.get? name := by
    intro other f hf hne
    rcases hother : env.get? other with _ | s
    · rfl
    · exact hf s ((mem_of_get? hother).2 ▸ hne)
  cases operation with
  | addHighest source => exact get?_addHighest_of_ne (mt List.mem_singleton.mpr h)
  | addLowest source => exact get?_addLowest_of_ne (mt List.mem_singleton.mpr h)
  | readdHighest other =>
    exact readd (fun _ => get?_addHighest_of_ne) (mt List.mem_singleton.mpr h)
  | readdLowest other =>
    exact readd (fun _ => get?_addLowest_of_ne) (mt List.mem_singleton.mpr h)
  | remove other => exact get?_remove_of_ne (mt List.mem_singleton.mpr h)
  | write other change =>
    rw [perform, get?_modify, if_neg fun ho => h (List.mem_singleton.mpr ho.symm)]
  | applyLocations loader encoding locations => exact get?_applyLocations_of_not_mem h
  | applyInlined entries => exact get?_applyInlined_of_ne (mt List.mem_singleton.mpr h) entries
  | applyMerged loader encoding merged =>
    obtain ⟨hname, hasked⟩ := not_or.mp (mt List.mem_cons.mpr h)
    exact get?_applyMerged_of_not_mem hname hasked

end Environment

end PropertyLayers
