import PropertyLayers.Proofs.Environment.Loads

/-!
# The place of the inlined source

Inline entries go into one source, which is made on top where there is none and else stays where it
stands. So a value that an entry gives counts for its key unless a source above the inlined one
holds the key (`rawProperty?_overlayInlined`), and what stands above it after an application has
been loaded by it or stood there before.
-/

namespace PropertyLayers

namespace Environment

variable {env : Environment}

theorem sources_of_get? {name : Text} {s : Source} (h : env.get? name = some s) :
    ∃ below, env.sources = env.above name ++ s :: below := by
  obtain ⟨hs, upper, lower, he, hu⟩ := List.find?_eq_some_iff_append.mp h
  refine ⟨lower, ?_⟩
  have ha : env.above name = upper := by
    rw [above, he, List.takeWhile_append_of_pos (fun t ht => by simpa using hu t ht),
      List.takeWhile_cons_of_neg (by simpa using hs), List.append_nil]
  rw [ha]
  exact he

theorem name_ne_of_mem_above {name : Text} {s : Source} (h : s ∈ env.above name) :
    s.name ≠ name := by
  have ha : (env.above name).all fun s => s.name ≠ name := List.all_takeWhile
  simpa using List.all_eq_true.mp ha s h

theorem modify_go_append {name : Text} (change : PropertyMap → PropertyMap) {s : Source}
    (hs : s.name = name) (lower : List Source) :
    ∀ {upper : List Source}, (∀ t ∈ upper, t.name ≠ name) →
      modify.go name change (upper ++ s :: lower) =
        upper ++ { s with properties := change s.properties } :: lower
  | [], _ => by simp [modify.go, hs]
  | t :: upper, h => by
    have ih := modify_go_append change hs lower
      fun u hu => h u (List.mem_cons_of_mem t hu)
    rw [List.cons_append, modify.go, if_neg (h t List.mem_cons_self), ih, List.cons_append]

/-- The source held under the name changes where it stands. -/
theorem sources_modify {name : Text} (change : PropertyMap → PropertyMap) {s : Source}
    {below : List Source} (hn : s.name = name) (h : env.sources = env.above name ++ s :: below) :
    (env.modify name change).sources =
      env.above name ++ { s with properties := change s.properties } :: below := by
  rw [modify, h]
  exact modify_go_append change hn below fun t ht => name_ne_of_mem_above ht

theorem above_eq_of_sources {name : Text} {s : Source} {upper lower : List Source}
    (h : env.sources = upper ++ s :: lower) (hs : s.name = name)
    (hu : ∀ t ∈ upper, t.name ≠ name) : env.above name = upper := by
  rw [above, h, List.takeWhile_append_of_pos (fun t ht => by simpa using hu t ht),
    List.takeWhile_cons_of_neg (by simpa using hs), List.append_nil]

theorem overlayInlined_of_none {properties : PropertyMap} (h : env.get? inlinedName = none) :
    env.overlayInlined properties = env.addHighest ⟨inlinedName, properties⟩ := by
  simp only [overlayInlined, h]

theorem overlayInlined_of_some {properties : PropertyMap} {s : Source}
    (h : env.get? inlinedName = some s) :
    env.overlayInlined properties = env.modify inlinedName (·.update properties) := by
  simp only [overlayInlined, h]

/-- The inlined source after an overlay holds the value. What stands above it has not changed, and
is nothing where the source is new. -/
theorem sources_overlayInlined (env : Environment) {properties : PropertyMap} {key value : Text}
    (hv : properties.get? key = some value) :
    ∃ s upper lower, (env.overlayInlined properties).sources = upper ++ s :: lower
      ∧ (env.overlayInlined properties).above inlinedName = upper
      ∧ s.properties.get? key = some value
      ∧ upper = if env.get? inlinedName = none then [] else env.above inlinedName := by
  rcases h : env.get? inlinedName with _ | s
  · rw [overlayInlined_of_none h]
    have hs : _ = [] ++ _ := sources_addHighest env ⟨inlinedName, properties⟩
    exact ⟨_, [], _, hs, above_eq_of_sources hs rfl (by simp), hv, rfl⟩
  · rw [overlayInlined_of_some h]
    obtain ⟨below, hb⟩ := sources_of_get? h
    have hn := (mem_of_get? h).2
    have hs := sources_modify (·.update properties) hn hb
    have ha := above_eq_of_sources hs hn fun t ht => name_ne_of_mem_above ht
    refine ⟨_, _, _, hs, ha, ?_, rfl⟩
    rw [PropertyMap.get?_update, hv]
    rfl

theorem rawProperty?_overlayInlined {properties : PropertyMap} {key value : Text}
    (hv : properties.get? key = some value) :
    (env.overlayInlined properties).rawProperty? key =
      (firstValue? ((env.overlayInlined properties).above inlinedName) key).or (some value) := by
  obtain ⟨s, upper, lower, hs, ha, hk, -⟩ := sources_overlayInlined env hv
  rw [rawProperty?_eq, ha, hs, firstValue?_append]
  simp only [firstValue?, List.findSome?_cons, hk]

variable {loader : Loader} {encoding : Text}

theorem applyInlined_of_readEntries {entries : List Text} {properties : PropertyMap}
    (hne : entries ≠ []) (h : Properties.readEntries entries = .ok properties) :
    env.applyInlined entries = ⟨env.overlayInlined properties, [], none⟩ := by
  have he : entries.isEmpty = false := by simpa using hne
  simp only [applyInlined, he, h]
  rfl

theorem applyMerged_of_loads {merged : MergedSources} {sources : List Source}
    (h : env.Loads loader encoding [] merged.locations sources) :
    env.applyMerged loader encoding merged =
      { (env.addAllHighest sources).applyInlined merged.properties with
        asked := sources.map Source.name } := by
  simp only [applyMerged, applyLocations_eq_of_loads h]

/-- An application succeeds only where the locations load and the entries can be read. -/
theorem loads_of_applyMerged {merged : MergedSources}
    (h : (env.applyMerged loader encoding merged).failure? = none) :
    ∃ sources properties, env.Loads loader encoding [] merged.locations sources
      ∧ Properties.readEntries merged.properties = .ok properties := by
  have hl : (env.applyLocations loader encoding merged.locations).failure? = none := by
    rcases hf : (env.applyLocations loader encoding merged.locations).failure? with _ | failure
    · rfl
    · simp [applyMerged, hf] at h
  obtain ⟨sources, hs⟩ := loads_of_applyLocations hl
  rw [applyMerged_of_loads hs] at h
  rcases hp : Properties.readEntries merged.properties with malformed | properties
  · rcases he : merged.properties.isEmpty with _ | _
    · simp [applyInlined, he, hp] at h
    · rw [List.isEmpty_iff.mp he] at hp
      cases hp
  · exact ⟨sources, properties, hs, rfl⟩

/-- An inlined value yields to what stands above the inlined source, and to nothing else. What
stands there was loaded by the application or stood there before, so the value counts where no
source of that name was held before or is loaded. -/
theorem inlined_value_after_applyMerged {merged : MergedSources}
    (h : (env.applyMerged loader encoding merged).failure? = none) :
    ∃ sources properties, env.Loads loader encoding [] merged.locations sources
      ∧ Properties.readEntries merged.properties = .ok properties
      ∧ ∀ key value, properties.get? key = some value →
        let after := (env.applyMerged loader encoding merged).environment
        after.rawProperty? key =
            (firstValue? (after.above inlinedName) key).or (some value)
          ∧ (∀ s ∈ after.above inlinedName, s ∈ sources ∨ s ∈ env.above inlinedName)
          ∧ (inlinedName ∉ env.names → inlinedName ∉ sources.map Source.name →
              after.rawProperty? key = some value) := by
  obtain ⟨sources, properties, hs, hp⟩ := loads_of_applyMerged h
  refine ⟨sources, properties, hs, hp, fun key value hv => ?_⟩
  have hne : merged.properties ≠ [] := by
    intro he
    rw [he] at hp
    cases hp
    rw [PropertyMap.get?_empty] at hv
    cases hv
  have ha : (env.applyMerged loader encoding merged).environment =
      (env.addAllHighest sources).overlayInlined properties := by
    rw [applyMerged_of_loads hs, applyInlined_of_readEntries hne hp]
  obtain ⟨-, upper, -, -, habove, -, hupper⟩ :=
    sources_overlayInlined (env.addAllHighest sources) hv
  rw [ha]
  refine ⟨rawProperty?_overlayInlined hv, ?_, ?_⟩
  · intro s hm
    rw [habove, hupper] at hm
    split at hm
    · simp at hm
    · exact mem_above_addAllHighest sources env hm
  · intro henv hsources
    have hnone : (env.addAllHighest sources).get? inlinedName = none := by
      rw [get?_addAllHighest, get?_eq_none_iff.mpr henv, Option.or_none, List.find?_eq_none]
      intro s hm hn
      exact hsources (List.mem_map.mpr ⟨s, by simpa using hm, by simpa using hn⟩)
    rw [rawProperty?_overlayInlined hv, habove, hupper, if_pos hnone]
    rfl

/-- A loader that has one resource, in which `k` is 3. -/
def oneResource : Loader := .ofEntries [("x", [107, 61, 51])]

/-- An environment that an earlier application of `k=1` has left behind. -/
def inlinedOnce : Environment := ((empty false).applyInlined ["k=1"]).environment

theorem loads_oneResource (env : Environment) :
    env.Loads oneResource "utf-8" [] ["x"] [⟨"x", .ofPairs [("k", "3")]⟩] :=
  .cons (resolveLocation_of_dollar_not_mem [] (by decide)) rfl .nil

theorem inlined_value_after_applyMerged_inlinedOnce :
    let merged : MergedSources := ⟨["x"], ["k=2"]⟩
    (inlinedOnce.applyMerged oneResource "utf-8" merged).failure? = none
      ∧ ∃ sources properties, inlinedOnce.Loads oneResource "utf-8" [] merged.locations sources
        ∧ Properties.readEntries merged.properties = .ok properties
        ∧ ∀ key value, properties.get? key = some value →
          let after := (inlinedOnce.applyMerged oneResource "utf-8" merged).environment
          after.rawProperty? key =
              (firstValue? (after.above inlinedName) key).or (some value)
            ∧ (∀ s ∈ after.above inlinedName, s ∈ sources ∨ s ∈ inlinedOnce.above inlinedName)
            ∧ (inlinedName ∉ inlinedOnce.names → inlinedName ∉ sources.map Source.name →
                after.rawProperty? key = some value) := by
  have hl := loads_oneResource inlinedOnce
  have h : (inlinedOnce.applyMerged oneResource "utf-8" ⟨["x"], ["k=2"]⟩).failure? = none := by
    rw [applyMerged_of_loads hl]
    rfl
  exact ⟨h, inlined_value_after_applyMerged h⟩

/-- A location that the second application loads stands above the inlined source, which the first
one has made. -/
theorem inlined_value_hidden :
    let after := inlinedOnce.applyMerged oneResource "utf-8" ⟨["x"], ["k=2"]⟩
    after.failure? = none
      ∧ Properties.readEntries ["k=2"] = .ok (.ofPairs [("k", "2")])
      ∧ (PropertyMap.ofPairs [("k", "2")]).get? "k" = some (Text.ofString "2")
      ∧ after.environment.rawProperty? "k" = some (Text.ofString "3") := by
  have hl := loads_oneResource inlinedOnce
  have ha : inlinedOnce.applyMerged oneResource "utf-8" ⟨["x"], ["k=2"]⟩ = _ :=
    applyMerged_of_loads hl
  simp only [ha]
  exact ⟨rfl, rfl, rfl, rfl⟩

end Environment

end PropertyLayers
