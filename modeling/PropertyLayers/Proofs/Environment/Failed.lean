import PropertyLayers.Proofs.Environment.Distinct
import PropertyLayers.Proofs.Properties.Inline

/-!
# Applications that fail

The application of locations fails exactly at a location that is not resolved, or not loaded, after
all before it have been; the application of entries fails exactly at one that is rejected. Either
way the environment stays as it was (`unchanged_of_failed_application`). The two together are not
all or nothing: where the locations load and an entry is rejected, the located sources have been
added (`applyMerged_of_rejected`).
-/

namespace PropertyLayers

namespace Environment

variable {env : Environment} {loader : Loader} {encoding : Text}

/-- Why a location does not load over what is staged. -/
inductive Refuses (env : Environment) (loader : Loader) (encoding : Text) (staged : List Source)
    (location : Text) : Failure → Prop
  | unresolved {placeholder : UnexpandedPlaceholder} :
      env.resolveLocation staged location = .error placeholder →
        Refuses env loader encoding staged location (.unexpanded placeholder)
  | unloaded {name : Text} {failure : Failure} :
      env.resolveLocation staged location = .ok name →
        loader.source name encoding = .error failure →
          Refuses env loader encoding staged location failure

/-- Some of the locations load, and the next one does not, for this reason. -/
def StopsWith (env : Environment) (loader : Loader) (encoding : Text) (staged : List Source)
    (locations : List Text) (failure : Failure) : Prop :=
  ∃ before location after sources, locations = before ++ location :: after
    ∧ env.Loads loader encoding staged before sources
    ∧ env.Refuses loader encoding (staged ++ sources) location failure

theorem stopsWith_of_stage {failure : Failure} :
    ∀ {locations : List Text} {staged : List Source},
      (env.stage loader encoding staged locations).outcome = .error failure →
        env.StopsWith loader encoding staged locations failure
  | [], _, h => by cases h
  | location :: rest, staged, h => by
    have here : env.Refuses loader encoding staged location failure →
        env.StopsWith loader encoding staged (location :: rest) failure := by
      intro hr
      rw [← List.append_nil staged] at hr
      exact ⟨[], location, rest, [], rfl, .nil, hr⟩
    rcases hname : env.resolveLocation staged location with placeholder | name
    · simp only [stage, hname] at h
      cases h
      exact here (.unresolved hname)
    rcases hsource : loader.source name encoding with _ | source
    · simp only [stage, hname, hsource] at h
      cases h
      exact here (.unloaded hname hsource)
    simp only [stage, hname, hsource] at h
    obtain ⟨before, stop, after, sources, rfl, hloads, hrefuses⟩ := stopsWith_of_stage h
    rw [List.append_assoc] at hrefuses
    exact ⟨location :: before, stop, after, source :: sources, rfl,
      .cons hname hsource hloads, hrefuses⟩

theorem stage_append_of_loads {staged sources : List Source} {before : List Text}
    (h : env.Loads loader encoding staged before sources) (rest : List Text) :
    (env.stage loader encoding staged (before ++ rest)).outcome =
      (env.stage loader encoding (staged ++ sources) rest).outcome := by
  induction h with
  | nil => rw [List.append_nil, List.nil_append]
  | cons resolved loaded _ ih =>
    simp only [List.cons_append, stage, resolved, loaded, ih]
    rw [List.append_assoc]
    rfl

theorem stage_of_refuses {staged : List Source} {location : Text} {failure : Failure}
    (h : env.Refuses loader encoding staged location failure) (rest : List Text) :
    (env.stage loader encoding staged (location :: rest)).outcome = .error failure := by
  cases h with
  | unresolved hname => simp only [stage, hname]
  | unloaded hname hsource => simp only [stage, hname, hsource]

theorem stage_eq_error_iff {staged : List Source} {locations : List Text} {failure : Failure} :
    (env.stage loader encoding staged locations).outcome = .error failure ↔
      env.StopsWith loader encoding staged locations failure := by
  refine ⟨stopsWith_of_stage, ?_⟩
  rintro ⟨before, location, after, sources, rfl, hloads, hrefuses⟩
  rw [stage_append_of_loads hloads, stage_of_refuses hrefuses]

theorem failure?_applyLocations_iff {locations : List Text} {failure : Failure} :
    (env.applyLocations loader encoding locations).failure? = some failure ↔
      (env.stage loader encoding [] locations).outcome = .error failure := by
  rcases hs : (env.stage loader encoding [] locations).outcome with stop | sources
  · simp [applyLocations, hs]
  · simp [applyLocations, hs]

theorem environment_of_applyLocations_failure {locations : List Text} {failure : Failure}
    (h : (env.applyLocations loader encoding locations).failure? = some failure) :
    (env.applyLocations loader encoding locations).environment = env := by
  simp only [applyLocations, failure?_applyLocations_iff.mp h]

theorem failure?_applyInlined_iff {entries : List Text} {failure : Failure} :
    (env.applyInlined entries).failure? = some failure ↔
      ∃ malformed, Properties.readEntries entries = .error malformed
        ∧ failure = .malformedEntry malformed := by
  rcases hp : Properties.readEntries entries with malformed | properties
  · rcases entries with _ | ⟨entry, rest⟩
    · cases hp
    · simp [applyInlined, hp, eq_comm]
  · rcases entries with _ | ⟨entry, rest⟩
    · simp [applyInlined]
    · simp [applyInlined, hp]

theorem applyInlined_of_readEntries_error {entries : List Text}
    {malformed : Properties.MalformedEntry} (h : Properties.readEntries entries = .error malformed) :
    env.applyInlined entries = ⟨env, [], some (.malformedEntry malformed)⟩ := by
  rcases entries with _ | ⟨entry, rest⟩
  · cases h
  · simp only [applyInlined, h]
    rfl

/-- An application of locations, or of entries, that fails has changed nothing, whatever has been
loaded before it stops and for whatever reason it stops. -/
theorem unchanged_of_failed_application (env : Environment) :
    (∀ loader encoding locations failure,
      let after := env.applyLocations loader encoding locations
      (after.failure? = some failure ↔ env.StopsWith loader encoding [] locations failure)
        ∧ (after.failure? = some failure → after.environment = env))
    ∧ ∀ entries failure,
      let after := env.applyInlined entries
      (after.failure? = some failure ↔
          ∃ malformed, Properties.FirstRejected entries malformed
            ∧ failure = .malformedEntry malformed)
        ∧ (after.failure? = some failure → after.environment = env) := by
  refine ⟨fun loader encoding locations failure => ⟨?_, environment_of_applyLocations_failure⟩,
    fun entries failure => ⟨?_, fun h => ?_⟩⟩
  · rw [failure?_applyLocations_iff, stage_eq_error_iff]
  · simp only [failure?_applyInlined_iff, Properties.readEntries_eq_error_iff]
  · obtain ⟨malformed, hp, rfl⟩ := failure?_applyInlined_iff.mp h
    rw [applyInlined_of_readEntries_error hp]

theorem lenient_addAllHighest :
    ∀ (sources : List Source) (env : Environment),
      (env.addAllHighest sources).lenient = env.lenient
  | [], _ => rfl
  | source :: rest, env => by
    rw [addAllHighest_cons, lenient_addAllHighest rest, addHighest, remove]
    split <;> rfl

/-- To add sources changes nothing exactly where they stand on top already. -/
theorem addAllHighest_eq_self_iff (h : env.names.Nodup) (sources : List Source) :
    env.addAllHighest sources = env ↔ latest sources <+: env.sources := by
  have hsources := sources_addAllHighest sources h
  constructor
  · intro he
    rw [he] at hsources
    exact ⟨_, hsources.symm⟩
  · rintro ⟨lower, hlower⟩
    have hupper : othersThan (sources.map Source.name) (latest sources) = [] :=
      othersThan_eq_nil fun s hs => mem_latest_names.mp (List.mem_map.mpr ⟨s, hs, rfl⟩)
    have hkept : othersThan (sources.map Source.name) lower = lower := by
      rw [names, ← hlower, List.map_append] at h
      refine othersThan_eq_self fun s hs hn => ?_
      have hs : s.name ∈ lower.map Source.name := List.mem_map.mpr ⟨s, hs, rfl⟩
      exact (List.nodup_append.mp h).2.2 _ (mem_latest_names.mpr hn) _ hs rfl
    rw [← hlower, othersThan_append, hupper, hkept, List.nil_append, hlower] at hsources
    have hlenient := lenient_addAllHighest sources env
    rcases env with ⟨own, lenient⟩
    rcases ha : addAllHighest ⟨own, lenient⟩ sources with ⟨after, lenient'⟩
    rw [ha] at hsources hlenient
    cases hsources
    cases hlenient
    rfl

/-- Where the locations load and an entry is rejected, the application fails with the first such
entry and leaves the environment as the locations alone do. So it has changed nothing exactly where
the located sources stood on top already. -/
theorem applyMerged_of_rejected {merged : MergedSources} {sources : List Source} {entry : Text}
    {fault : Properties.EntryFault}
    (hl : env.Loads loader encoding [] merged.locations sources)
    (he : entry ∈ merged.properties) (hr : Properties.Rejects entry fault) :
    let after := env.applyMerged loader encoding merged
    (∃ malformed, Properties.FirstRejected merged.properties malformed
        ∧ after.failure? = some (.malformedEntry malformed))
      ∧ after.environment = (env.applyLocations loader encoding merged.locations).environment
      ∧ (env.names.Nodup →
          after.environment.sources =
              latest sources ++ othersThan (sources.map Source.name) env.sources
            ∧ (after.environment = env ↔ latest sources <+: env.sources)) := by
  obtain ⟨malformed, hfirst⟩ := Properties.exists_firstRejected he hr
  have ha : env.applyMerged loader encoding merged =
      ⟨env.addAllHighest sources, sources.map Source.name, some (.malformedEntry malformed)⟩ := by
    rw [applyMerged_of_loads hl,
      applyInlined_of_readEntries_error (Properties.readEntries_eq_error_iff.mpr hfirst)]
  rw [ha, applyLocations_eq_of_loads hl]
  exact ⟨⟨malformed, hfirst, rfl⟩, rfl,
    fun hn => ⟨sources_addAllHighest sources hn, addAllHighest_eq_self_iff hn sources⟩⟩

theorem rejects_bareKey : Properties.Rejects "k" .noSeparator := ⟨rfl, rfl⟩

theorem applyMerged_of_rejected_inlinedOnce :
    let merged : MergedSources := ⟨["x"], ["k=2", "k"]⟩
    let sources : List Source := [⟨"x", .ofPairs [("k", "3")]⟩]
    let after := inlinedOnce.applyMerged oneResource "utf-8" merged
    inlinedOnce.Loads oneResource "utf-8" [] merged.locations sources
      ∧ Text.ofString "k" ∈ merged.properties
      ∧ Properties.Rejects "k" .noSeparator
      ∧ (∃ malformed, Properties.FirstRejected merged.properties malformed
          ∧ after.failure? = some (.malformedEntry malformed))
      ∧ after.environment =
          (inlinedOnce.applyLocations oneResource "utf-8" merged.locations).environment
      ∧ (inlinedOnce.names.Nodup →
          after.environment.sources =
              latest sources ++ othersThan (sources.map Source.name) inlinedOnce.sources
            ∧ (after.environment = inlinedOnce ↔ latest sources <+: inlinedOnce.sources)) := by
  have hl := loads_oneResource inlinedOnce
  have he : Text.ofString "k" ∈ (⟨["x"], ["k=2", "k"]⟩ : MergedSources).properties := by decide
  exact ⟨hl, he, rejects_bareKey, applyMerged_of_rejected hl he rejects_bareKey⟩

/-- The location has been added although an entry is rejected. -/
theorem located_before_rejected :
    let after := (empty false).applyMerged oneResource "utf-8" ⟨["x"], ["k"]⟩
    (empty false).Loads oneResource "utf-8" [] ["x"] [⟨"x", .ofPairs [("k", "3")]⟩]
      ∧ Properties.Rejects "k" .noSeparator
      ∧ after.failure? = some (.malformedEntry ⟨"k", .noSeparator⟩)
      ∧ after.environment = ⟨[⟨"x", .ofPairs [("k", "3")]⟩], false⟩
      ∧ after.environment ≠ empty false := by
  have hl := loads_oneResource (empty false)
  have hp : Properties.readEntries ["k"] = .error ⟨"k", .noSeparator⟩ := rfl
  have ha : (empty false).applyMerged oneResource "utf-8" ⟨["x"], ["k"]⟩ =
      ⟨⟨[⟨"x", .ofPairs [("k", "3")]⟩], false⟩, ["x"],
        some (.malformedEntry ⟨"k", .noSeparator⟩)⟩ := by
    rw [applyMerged_of_loads hl, applyInlined_of_readEntries_error hp]
    rfl
  rw [ha]
  exact ⟨hl, rejects_bareKey, rfl, rfl, by simp [empty]⟩

end Environment

end PropertyLayers
