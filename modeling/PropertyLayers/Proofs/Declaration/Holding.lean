import Mathlib.Data.List.Basic
import PropertyLayers.Proofs.Declaration.Default

/-!
# Merged sources that hold something

A level that can be folded comes to at least one location or property, for it has its default
resource where its declarations hold nothing (`Level.FoldsTo.holds`). The most derived level is never
cut off, and all it comes to ends up in what is merged (`mergeDeclarations_holds_lead`). So
declarations are merged to nothing only if there are none
(`isEmpty_iff_of_mergeDeclarations`).
-/

namespace PropertyLayers

variable {loader : Loader} {suffix : Text} {declarations : List Declaration}
  {merged : MergedSources}

theorem Attachment.isEmpty_iff {a : Attachment} :
    a.isEmpty ↔ a.locations = [] ∧ a.properties = [] := by
  rw [isEmpty, Bool.and_eq_true, List.isEmpty_iff, List.isEmpty_iff]

theorem MergedSources.isEmpty_iff :
    merged.isEmpty ↔ merged.locations = [] ∧ merged.properties = [] := by
  rw [isEmpty, Bool.and_eq_true, List.isEmpty_iff, List.isEmpty_iff]

theorem Level.FoldsTo.holds {level : Level} {known : List Text} {folded : FoldedLevel}
    (h : level.FoldsTo suffix known folded) : folded.locations ≠ [] ∨ folded.properties ≠ [] := by
  rw [h.locations, h.properties]
  split
  · exact .inl (List.cons_ne_nil _ _)
  · rename_i hblank
    obtain ⟨d, hd, hholds⟩ : ∃ d ∈ level.declarations, ¬ d.isEmpty := by
      push Not at hblank
      exact hblank
    have hordered : d ∈ level.ordered := mem_ordered.mpr hd
    rw [Attachment.isEmpty_iff, not_and_or] at hholds
    refine hholds.imp (fun hl hnil => hl ?_) (fun hp hnil => hp ?_)
    · exact List.flatMap_eq_nil_iff.mp hnil d hordered
    · exact List.flatMap_eq_nil_iff.mp hnil d hordered

/-- The most derived level counts, whatever it cuts off. -/
theorem suffix_flatMap_uncut {α β : Type} {inherits : α → Bool} (f : α → List β) {level : α}
    {ancestors : List α} : f level <:+ (uncut inherits (level :: ancestors)).reverse.flatMap f := by
  rw [uncut_cons, List.reverse_cons, List.flatMap_append, List.flatMap_singleton]
  exact List.suffix_append _ _

theorem Declaration.levels_eq_nil_iff : levels declarations = [] ↔ declarations = [] := by
  constructor
  · intro h
    refine List.eq_nil_iff_forall_not_mem.mpr fun d hd => ?_
    obtain ⟨level, hlevel, -⟩ := (grouping_levels declarations).covered d hd
    rw [h] at hlevel
    cases hlevel
  · rintro rfl
    simp [levels, levelIndexes]

/-- What the most derived level comes to stands last in what is merged. -/
theorem mergeDeclarations_holds_lead (hne : declarations ≠ [])
    (h : mergeDeclarations loader suffix declarations = .ok merged) :
    let known := Level.knownAfterAll loader suffix (Declaration.levels declarations)
    ∃ level folded, (Declaration.levels declarations).head? = some level
      ∧ level.fold loader suffix [] = .ok folded
      ∧ folded.locations.map (folded.declaring.amid known).canonical <:+ merged.locations
      ∧ folded.properties <:+ merged.properties := by
  intro known
  rcases Level.foldAll_cases (Declaration.levels declarations) [] with
    ⟨_, failure, _, -, hall⟩ | ⟨results, houtcomes, hall⟩
  · rw [mergeDeclarations_of_error hall] at h
    cases h
  rw [mergeDeclarations_of_ok hall] at h
  rcases hlevels : Declaration.levels declarations with _ | ⟨level, ancestors⟩
  · exact absurd (Declaration.levels_eq_nil_iff.mp hlevels) hne
  rw [hlevels, Level.outcomes] at houtcomes
  rcases results with _ | ⟨folded, others⟩
  · cases houtcomes
  cases h
  refine ⟨level, folded, rfl, (List.cons.inj houtcomes).1, ?_, suffix_flatMap_uncut _⟩
  exact suffix_flatMap_uncut fun other : FoldedLevel =>
    other.locations.map (other.declaring.amid known).canonical

/-- Declarations that can be merged are merged to nothing only if there are none. -/
theorem isEmpty_iff_of_mergeDeclarations
    (h : mergeDeclarations loader suffix declarations = .ok merged) :
    merged.isEmpty ↔ declarations = [] := by
  constructor
  · intro hempty
    by_contra hne
    obtain ⟨hlocations, hproperties⟩ := MergedSources.isEmpty_iff.mp hempty
    obtain ⟨level, folded, -, hfold, hown, hentries⟩ := mergeDeclarations_holds_lead hne h
    rw [hlocations, List.suffix_nil, List.map_eq_nil_iff] at hown
    rw [hproperties, List.suffix_nil] at hentries
    exact (Level.foldsTo_of_fold hfold).holds.elim (· hown) (· hentries)
  · rintro rfl
    rw [mergeDeclarations, Declaration.levels_eq_nil_iff.mpr rfl] at h
    cases h
    rfl

/-- A class that declares nothing and inherits nothing has its default resource left, whatever its
ancestor declares. -/
theorem isEmpty_iff_of_mergeDeclarations_default :
    let own : Declaration :=
      { blankDeclaration moduleCase with inheritLocations := false, inheritProperties := false }
    let ancestor : Declaration :=
      ⟨⟨["a.properties"], ["key=1"], true, true, 0⟩, ⟨"pkg.m", "Base", [], false⟩, 1⟩
    let merged : MergedSources := ⟨["classpath:pkg/C.properties"], []⟩
    mergeDeclarations (resourceAt "classpath:pkg/C.properties") ".properties" [own, ancestor] =
        .ok merged
      ∧ ¬ merged.isEmpty := by
  intro own ancestor merged
  have hmerged : mergeDeclarations (resourceAt "classpath:pkg/C.properties") ".properties"
      [own, ancestor] = .ok merged := by cbv
  refine ⟨hmerged, fun hempty => ?_⟩
  exact List.cons_ne_nil _ _ ((isEmpty_iff_of_mergeDeclarations hmerged).mp hempty)

end PropertyLayers
