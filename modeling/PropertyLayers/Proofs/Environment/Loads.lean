import PropertyLayers.Proofs.Environment.Sources
import PropertyLayers.Proofs.Placeholder.Leaves

/-!
# Locations that load

`Loads` says what the locations of one application come to when every one of them resolves and
loads. Staging ends well exactly there (`stage_eq_ok_iff`), and then the environment is the one with
the loaded sources added in turn (`applyLocations_eq_of_loads`). A source is named after what the
loader was asked for, so loaded sources of one name are the same (`Loads.sameByName`).
-/

namespace PropertyLayers

variable {loader : Loader} {encoding : Text}

namespace Environment

variable {env : Environment}

/-- A location without a dollar sign is asked for as it stands. -/
theorem resolveLocation_of_dollar_not_mem (staged : List Source) {location : Text}
    (h : dollar ∉ location) : env.resolveLocation staged location = .ok location := by
  rw [resolveLocation, expand_of_dollar_not_mem true [] h]
  exact expand_of_dollar_not_mem env.lenient [] h

/-- The sources that locations come to after those that are staged already, one for each. -/
inductive Loads (env : Environment) (loader : Loader) (encoding : Text) :
    List Source → List Text → List Source → Prop
  | nil {staged : List Source} : Loads env loader encoding staged [] []
  | cons {staged sources : List Source} {location name : Text} {rest : List Text}
      {source : Source} (resolved : env.resolveLocation staged location = .ok name)
      (loaded : loader.source name encoding = .ok source)
      (later : Loads env loader encoding (staged ++ [source]) rest sources) :
      Loads env loader encoding staged (location :: rest) (source :: sources)

theorem Loads.length_eq {staged sources : List Source} {locations : List Text}
    (h : env.Loads loader encoding staged locations sources) :
    sources.length = locations.length := by
  induction h with
  | nil => rfl
  | cons _ _ _ ih => rw [List.length_cons, List.length_cons, ih]

theorem Loads.source_eq {staged sources : List Source} {locations : List Text}
    (h : env.Loads loader encoding staged locations sources) :
    ∀ s ∈ sources, loader.source s.name encoding = .ok s := by
  induction h with
  | nil => simp
  | cons _ loaded _ ih =>
    intro s hs
    rcases List.mem_cons.mp hs with rfl | hs
    · rw [Loader.name_of_source loaded]
      exact loaded
    · exact ih s hs

theorem Loads.eq_of_name {staged sources : List Source} {locations : List Text}
    (h : env.Loads loader encoding staged locations sources) {s t : Source} (hs : s ∈ sources)
    (ht : t ∈ sources) (hn : s.name = t.name) : s = t := by
  have he := h.source_eq s hs
  rw [hn, h.source_eq t ht] at he
  exact (Except.ok.inj he).symm

theorem Loads.sameByName {staged sources : List Source} {locations : List Text}
    (h : env.Loads loader encoding staged locations sources) : SameByName sources :=
  fun _ hs _ ht hn => congrArg Source.properties (h.eq_of_name hs ht hn)

theorem Loads.stage_eq {staged sources : List Source} {locations : List Text}
    (h : env.Loads loader encoding staged locations sources) :
    env.stage loader encoding staged locations =
      ⟨sources.map Source.name, .ok (staged ++ sources)⟩ := by
  induction h with
  | nil => simp [stage]
  | cons resolved loaded _ ih =>
    simp only [stage, resolved, loaded, ih]
    simp [Loader.name_of_source loaded]

theorem loads_of_stage :
    ∀ {locations : List Text} {staged all : List Source},
      (env.stage loader encoding staged locations).outcome = .ok all →
        ∃ sources, env.Loads loader encoding staged locations sources
  | [], _, _, _ => ⟨[], .nil⟩
  | location :: rest, staged, all, h => by
    rcases hr : env.resolveLocation staged location with placeholder | name
    · simp [stage, hr] at h
    rcases hs : loader.source name encoding with failure | source
    · simp [stage, hr, hs] at h
    simp only [stage, hr, hs] at h
    obtain ⟨sources, later⟩ := loads_of_stage h
    exact ⟨source :: sources, .cons hr hs later⟩

theorem stage_eq_ok_iff {staged all : List Source} {locations : List Text} :
    (env.stage loader encoding staged locations).outcome = .ok all ↔
      ∃ sources, env.Loads loader encoding staged locations sources ∧ all = staged ++ sources := by
  constructor
  · intro h
    obtain ⟨sources, hl⟩ := loads_of_stage h
    rw [hl.stage_eq] at h
    exact ⟨sources, hl, (Except.ok.inj h).symm⟩
  · rintro ⟨sources, hl, rfl⟩
    rw [hl.stage_eq]

theorem applyLocations_eq_of_loads {locations : List Text} {sources : List Source}
    (h : env.Loads loader encoding [] locations sources) :
    env.applyLocations loader encoding locations =
      ⟨env.addAllHighest sources, sources.map Source.name, none⟩ := by
  simp [applyLocations, h.stage_eq]

theorem loads_of_applyLocations {locations : List Text}
    (h : (env.applyLocations loader encoding locations).failure? = none) :
    ∃ sources, env.Loads loader encoding [] locations sources := by
  rcases hs : (env.stage loader encoding [] locations).outcome with failure | all
  · simp [applyLocations, hs] at h
  · obtain ⟨sources, hl, -⟩ := stage_eq_ok_iff.mp hs
    exact ⟨sources, hl⟩

end Environment

end PropertyLayers
