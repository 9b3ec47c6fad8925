import Mathlib
import PropertyLayers.Proofs.Declaration.Agreement
import PropertyLayers.Proofs.Location.Default

/-!
# Default resources in merged locations

A level that declares nothing has its default resource for a location. What the merged locations
have of such a level is the location that the loader has confirmed, in canonical form
(`mergeDeclarations_default`). That is the confirmed location itself if a placeholder starts in it
or its path is normal, and a different one otherwise.
-/

namespace PropertyLayers

namespace Level

variable {loader : Loader} {suffix : Text}

/-- Levels in turn, each with the packages that are known when its turn comes. -/
def turns (loader : Loader) (suffix : Text) : List Text → List Level → List (Level × List Text)
  | _, [] => []
  | known, level :: ancestors =>
    (level, known) :: turns loader suffix (level.knownAfter loader suffix known) ancestors

/-- What a level comes to that can be folded amid these packages. -/
def folded (suffix : Text) (turn : Level × List Text) : FoldedLevel where
  declaring := turn.1.lead.declaring
  index := turn.1.index
  locations := match turn.1.defaultLocation? suffix turn.2 with
    | some location => [location]
    | none => turn.1.ordered.flatMap fun d => d.locations
  properties := turn.1.ordered.flatMap fun d => d.properties
  inheritLocations := turn.1.lead.inheritLocations
  inheritProperties := turn.1.lead.inheritProperties

/-- What a level has of the merged locations, where all these packages are known in the end. -/
def share (suffix : Text) (all : List Text) (turn : Level × List Text) : List Text :=
  match turn.1.defaultLocation? suffix turn.2 with
  | some location => [Location.clean location]
  | none =>
    (turn.1.ordered.flatMap fun d => d.locations).map (turn.1.lead.declaring.amid all).canonical

/-! ## Folding in turn -/

theorem map_fst_turns : ∀ (levels : List Level) (known : List Text),
    (turns loader suffix known levels).map Prod.fst = levels
  | [], _ => rfl
  | level :: ancestors, known => by
    rw [turns, List.map_cons, map_fst_turns ancestors]

/-- A level that can be folded agrees, and its default resource is there if it needs one. -/
theorem fold_eq_ok {turn : Level × List Text} {result : FoldedLevel}
    (h : turn.1.fold loader suffix turn.2 = .ok result) :
    result = folded suffix turn ∧ turn.1.Agreed
      ∧ ∀ location ∈ turn.1.defaultLocation? suffix turn.2, loader.has location = .ok true := by
  cases fold_eq_iff.mp h with
  | detected ha hb hhas =>
    have hd := @defaultLocation?_of_blank suffix turn.2 turn.1 ha hb
    refine ⟨?_, ha, fun location hlocation => ?_⟩
    · simp only [folded, hd, properties_ordered_of_blank hb]
    · rw [hd] at hlocation
      cases hlocation
      exact hhas
  | declared ha hb =>
    have hd := @defaultLocation?_eq_none suffix turn.2 turn.1 fun h => hb h.2
    refine ⟨?_, ha, fun location hlocation => ?_⟩
    · simp only [folded, hd, ← ordered_eq_lead_cons]
    · rw [hd] at hlocation
      cases hlocation

theorem foldAll_eq_ok :
    ∀ {levels : List Level} {known : List Text} {results : List FoldedLevel},
      foldAll loader suffix known levels = .ok results →
        results = (turns loader suffix known levels).map (folded suffix)
          ∧ ∀ turn ∈ turns loader suffix known levels, turn.1.Agreed
            ∧ ∀ location ∈ turn.1.defaultLocation? suffix turn.2, loader.has location = .ok true
  | [], _, _, h => by
    cases h
    exact ⟨rfl, by simp [turns]⟩
  | level :: ancestors, known, results, h => by
    rw [foldAll] at h
    rcases hf : level.fold loader suffix known with failure | result <;> rw [hf] at h
    · cases h
    rcases ha : foldAll loader suffix (level.knownAfter loader suffix known) ancestors with
      failure | others <;> rw [ha] at h
    · cases h
    cases h
    obtain ⟨hresult, hfirst⟩ := @fold_eq_ok loader suffix (level, known) result hf
    obtain ⟨hothers, hrest⟩ := foldAll_eq_ok ha
    rw [turns, List.map_cons, ← hresult, ← hothers]
    exact ⟨rfl, List.forall_mem_cons.mpr ⟨hfirst, hrest⟩⟩

/-- To canonicalise what a level comes to cleans a default location and does no more to it, whatever
packages have become known since it was looked for. -/
theorem map_canonical_folded (all : List Text) (turn : Level × List Text) :
    (folded suffix turn).locations.map ((folded suffix turn).declaring.amid all).canonical =
      share suffix all turn := by
  unfold folded share
  by_cases h : turn.1.Agreed ∧ turn.1.Blank
  · rw [defaultLocation?_of_blank h.1 h.2]
    simp only [List.map_cons, List.map_nil]
    rw [Declaration.defaultLocation, TestClass.canonical_defaultLocation]
  · rw [defaultLocation?_eq_none h]

/-- The share of a level that declares nothing is its default location, cleaned. -/
theorem share_of_blank {turn : Level × List Text} (ha : turn.1.Agreed) (hb : turn.1.Blank)
    (all : List Text) :
    share suffix all turn =
      [Location.clean (turn.1.lead.defaultLocation suffix turn.2)] := by
  rw [share, defaultLocation?_of_blank ha hb]

end Level

variable {loader : Loader} {suffix : Text}

/-- The merged locations are the shares of the levels that count. A level that declares nothing has
one location for its share, the clean form of the one that the loader has confirmed. The two are the
same if a placeholder starts in the confirmed location or its path is clean, as it is for an
ordinary class. -/
theorem mergeDeclarations_default {declarations : List Declaration} {merged : MergedSources}
    (h : mergeDeclarations loader suffix declarations = .ok merged) :
    let levels := Declaration.levels declarations
    let turns := Level.turns loader suffix [] levels
    let all := Level.knownAfterAll loader suffix levels
    turns.map Prod.fst = levels
      ∧ merged.locations = (uncut (fun turn => turn.1.lead.inheritLocations) turns).reverse.flatMap
          (Level.share suffix all)
      ∧ ∀ turn ∈ turns, turn.1.Agreed ∧ (turn.1.Blank →
          let location := turn.1.lead.defaultLocation suffix turn.2
          loader.has location = .ok true
            ∧ Level.share suffix all turn = [Location.clean location]
            ∧ (∃ path, location = Location.classPathScheme ++ path
              ∧ (Location.clean location = location ↔ Location.placeholderStart.holds path
                ∨ Location.CleanAfter Location.classPathScheme path))
            ∧ ((turn.1.lead.declaring.amid turn.2).IsOrdinary suffix →
                Location.clean location = location)) := by
  intro levels turns all
  rcases hf : Level.foldAll loader suffix [] levels with failure | results
  · rw [mergeDeclarations_of_error hf] at h
    cases h
  obtain ⟨hresults, hturns⟩ := Level.foldAll_eq_ok hf
  refine ⟨Level.map_fst_turns levels [], ?_, fun turn hturn => ?_⟩
  · have hmerged := mergeDeclarations_of_ok hf
    rw [h] at hmerged
    rw [Except.ok.inj hmerged, hresults, uncut_map (fun _ => rfl), ← List.map_reverse,
      List.flatMap_map]
    exact congrArg (List.flatMap · _) (funext (Level.map_canonical_folded all))
  · obtain ⟨hagreed, hhas⟩ := hturns turn hturn
    refine ⟨hagreed, fun hblank => ?_⟩
    obtain ⟨path, hpath⟩ :=
      TestClass.defaultLocation_eq (turn.1.lead.declaring.amid turn.2) suffix
    refine ⟨hhas _ (Level.defaultLocation?_of_blank hagreed hblank),
      Level.share_of_blank hagreed hblank all, ⟨path, hpath, ?_⟩,
      TestClass.clean_defaultLocation_of_isOrdinary⟩
    rw [Declaration.defaultLocation, hpath]
    exact Location.clean_classPath_eq_iff

def blankDeclaration (declaring : TestClass) : Declaration :=
  ⟨⟨[], [], true, true, 0⟩, declaring, 0⟩

def moduleCase : TestClass := ⟨"pkg.m", "C", [], false⟩

def blankLevel : Level := ⟨0, [blankDeclaration moduleCase], List.cons_ne_nil _ _⟩

/-- The one resource is at this location. -/
def resourceAt (location : Text) : Loader := Loader.ofEntries [(location, [])]

theorem blank_blankLevel : blankLevel.Blank := by
  intro d hd
  rw [List.mem_singleton.mp hd]
  exact ⟨rfl, rfl⟩

theorem mergeDeclarations_default_ordinary :
    mergeDeclarations (resourceAt "classpath:pkg/C.properties") ".properties"
        [blankDeclaration moduleCase] = .ok ⟨["classpath:pkg/C.properties"], []⟩
      ∧ (resourceAt "classpath:pkg/C.properties").has "classpath:pkg/C.properties" = .ok true
      ∧ Location.clean "classpath:pkg/C.properties" = "classpath:pkg/C.properties" := by
  have hmerged : mergeDeclarations (resourceAt "classpath:pkg/C.properties") ".properties"
      [blankDeclaration moduleCase] = .ok ⟨["classpath:pkg/C.properties"], []⟩ := by cbv
  have hlevels : Declaration.levels [blankDeclaration moduleCase] = [blankLevel] := by cbv
  have hlead : blankLevel.lead = blankDeclaration moduleCase := by cbv
  have hordinary : (moduleCase.amid []).IsOrdinary ".properties" :=
    ⟨by decide, by decide, by decide, rfl⟩
  have hlocation : blankLevel.lead.defaultLocation ".properties" [] =
      "classpath:pkg/C.properties" := by cbv
  obtain ⟨-, -, hturns⟩ := mergeDeclarations_default hmerged
  rw [hlevels] at hturns
  obtain ⟨-, hfallback⟩ := hturns (blankLevel, []) List.mem_cons_self
  obtain ⟨hhas, -, -, hclean⟩ := hfallback blank_blankLevel
  rw [hlocation] at hhas hclean
  rw [hlead] at hclean
  exact ⟨hmerged, hhas, hclean hordinary⟩

/-- The suffix is accepted and the default resource is there, but an empty segment of its location
is gone from the merged one. -/
theorem mergeDeclarations_respells_default :
    Settings.checkSuffix (.text ".//x") = .ok ".//x"
      ∧ blankLevel.Blank
      ∧ Declaration.levels [blankDeclaration moduleCase] = [blankLevel]
      ∧ blankLevel.fold (resourceAt "classpath:pkg/C.//x") ".//x" [] =
        .ok ⟨moduleCase, 0, ["classpath:pkg/C.//x"], [], true, true⟩
      ∧ (resourceAt "classpath:pkg/C.//x").has "classpath:pkg/C.//x" = .ok true
      ∧ mergeDeclarations (resourceAt "classpath:pkg/C.//x") ".//x" [blankDeclaration moduleCase] =
        .ok ⟨["classpath:pkg/C./x"], []⟩
      ∧ Text.ofString "classpath:pkg/C./x" ≠ Text.ofString "classpath:pkg/C.//x" := by
  exact ⟨rfl, blank_blankLevel, by cbv, by cbv, by cbv, by cbv, by decide⟩

end PropertyLayers
