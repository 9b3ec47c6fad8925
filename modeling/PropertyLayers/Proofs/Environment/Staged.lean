import Mathlib.Data.List.Induction
import PropertyLayers.Proofs.Environment.Located
import PropertyLayers.Proofs.Environment.Resolution

/-!
# What is staged and what comes of it

While locations are applied, nothing has been added yet, and a key is looked up in the sources that
are staged and then in the environment. Where the names that the locations come to are new to the
environment, that look gives what the environment will give once these sources have been added
(`predicts_of_fresh`): one more source that is staged is one more source that is added on top
(`Predicts.concat`), even if its name has been staged before. This holds at each location that is
reached (`stagedScope_predicts`).
-/

namespace PropertyLayers

namespace Environment

/-- To look a key up over what is staged is to look it up once these sources have been added. -/
def Predicts (env : Environment) (staged : List Source) : Prop :=
  ∀ key, (env.stagedScope staged).get? key = (env.addAllHighest staged).rawProperty? key

/-- The sources are what the loader gives for their names, and these are new to the environment. -/
structure Fresh (env : Environment) (loader : Loader) (encoding : Text) (staged : List Source) :
    Prop where
  loaded : ∀ s ∈ staged, loader.source s.name encoding = .ok s
  new : ∀ s ∈ staged, s.name ∉ env.names

variable {env : Environment} {loader : Loader} {encoding : Text} {staged : List Source}
  {source : Source}

theorem mem_sources_addAllHighest {s : Source} :
    ∀ {sources : List Source} {env : Environment},
      s ∈ (env.addAllHighest sources).sources → s ∈ sources ∨ s ∈ env.sources
  | [], _, h => .inr h
  | source :: rest, env, h => by
    rw [addAllHighest_cons] at h
    rcases mem_sources_addAllHighest h with hs | hs
    · exact .inl (List.mem_cons_of_mem source hs)
    · rw [sources_addHighest] at hs
      rcases List.mem_cons.mp hs with rfl | hs
      · exact .inl List.mem_cons_self
      · exact .inr (List.mem_of_mem_eraseP hs)

theorem addAllHighest_concat (env : Environment) (staged : List Source) (source : Source) :
    env.addAllHighest (staged ++ [source]) = (env.addAllHighest staged).addHighest source :=
  List.foldl_append

/-- One more source that is staged is asked first, as it is once it has been added, unless what it
replaces said something else. -/
theorem Predicts.concat (h : env.Predicts staged)
    (hsame : ∀ s ∈ (env.addAllHighest staged).sources, s.name = source.name →
      s.properties = source.properties) :
    env.Predicts (staged ++ [source]) := by
  intro key
  rw [addAllHighest_concat, rawProperty?_addHighest key hsame, ← h key, stagedScope_get?,
    stagedScope_get?, List.reverse_append, firstValue?_append, Option.or_assoc]
  simp [firstValue?]

theorem Fresh.of_concat (h : env.Fresh loader encoding (staged ++ [source])) :
    env.Fresh loader encoding staged :=
  ⟨fun s hs => h.loaded s (List.mem_append_left _ hs),
    fun s hs => h.new s (List.mem_append_left _ hs)⟩

-- The induction is on the source that is staged last. What it replaces is not a source of the
-- environment, whose names are others, and so is a source that was loaded for the same name.
theorem predicts_of_fresh (h : env.Fresh loader encoding staged) : env.Predicts staged := by
  induction staged using List.reverseRecOn with
  | nil => exact fun _ => rfl
  | append_singleton staged source ih =>
    refine (ih h.of_concat).concat fun s hs hname => ?_
    have hsource : source ∈ staged ++ [source] := List.mem_append_right staged List.mem_cons_self
    rcases mem_sources_addAllHighest hs with hs | hs
    · have hloaded := h.loaded s (List.mem_append_left _ hs)
      rw [hname, h.loaded source hsource] at hloaded
      cases hloaded
      rfl
    · exact absurd (List.mem_map.mpr ⟨s, hs, hname⟩) (h.new source hsource)

theorem along_predicts :
    ∀ {locations : List Text} {staged : List Source}, env.Fresh loader encoding staged →
      (∀ name ∈ (stageBy env.resolveLocation loader encoding staged locations).asked,
          name ∉ env.names) →
        Along (fun staged _ => env.Predicts staged) env.resolveLocation loader encoding staged
          locations
  | [], _, _, _ => trivial
  | location :: rest, staged, h, hasked => by
    refine ⟨predicts_of_fresh h, fun name source hname hsource => ?_⟩
    simp only [stageBy, hname, hsource, List.forall_mem_cons] at hasked
    obtain ⟨hnew, hlater⟩ := hasked
    have hsourceName : source.name = name := Loader.name_of_source hsource
    refine along_predicts ⟨?_, ?_⟩ hlater
    · rw [List.forall_mem_append, List.forall_mem_singleton, hsourceName]
      exact ⟨h.loaded, hsource⟩
    · rw [List.forall_mem_append, List.forall_mem_singleton, hsourceName]
      exact ⟨h.new, hnew⟩

/-- Where no name that the locations come to is that of a source, a key is looked up at each
location that is reached as it is in the environment to which the sources staged so far have been
added. So it is in the end, if all locations load. -/
theorem stagedScope_predicts {locations : List Text}
    (hnew : ∀ name ∈ (env.applyLocations loader encoding locations).asked, name ∉ env.names) :
    Along (fun staged _ => ∀ key, (env.stagedScope staged).get? key =
        (env.addAllHighest staged).rawProperty? key)
          env.resolveLocation loader encoding [] locations
      ∧ ∀ sources, env.Loads loader encoding [] locations sources → ∀ key,
        (env.stagedScope sources).get? key =
          (env.applyLocations loader encoding locations).environment.rawProperty? key := by
  constructor
  · rw [applyLocations_eq_finish, asked_finish] at hnew
    exact along_predicts ⟨by simp, by simp⟩ hnew
  · intro sources hloads
    rw [applyLocations_eq_of_loads hloads] at hnew ⊢
    exact predicts_of_fresh ⟨hloads.source_eq, fun s hs => hnew s.name (List.mem_map_of_mem hs)⟩

/-- An environment to which the names of the resources are new. -/
def namedOnly : Environment := ⟨[⟨"base", .ofPairs [("n", "x"), ("k", "0")]⟩], false⟩

/-- The name of the first source is loaded once more, behind another one that holds the key. -/
theorem stagedScope_predicts_loadedAgain :
    (∀ name ∈ (namedOnly.applyLocations twoResources "utf-8" threeLocations).asked,
        name ∉ namedOnly.names)
      ∧ Along (fun staged _ => ∀ key, (namedOnly.stagedScope staged).get? key =
          (namedOnly.addAllHighest staged).rawProperty? key) namedOnly.resolveLocation twoResources
          "utf-8" [] threeLocations := by
  have hnew : ∀ name ∈ (namedOnly.applyLocations twoResources "utf-8" threeLocations).asked,
      name ∉ namedOnly.names := by
    rw [applyLocations_eq_of_loads (loads_threeLocations (by cbv))]
    decide
  exact ⟨hnew, (stagedScope_predicts hnew).1⟩

/-- A source that is replaced may have held a key that the new one does not hold. -/
example :
    let env : Environment := ⟨[⟨"x", .ofPairs [("j", "0")]⟩], false⟩
    let staged : List Source := [⟨"x", .ofPairs [("k", "1")]⟩]
    (env.stagedScope staged).get? "j" = some (Text.ofString "0")
      ∧ (env.addAllHighest staged).rawProperty? "j" = none := by
  decide

end Environment

end PropertyLayers
