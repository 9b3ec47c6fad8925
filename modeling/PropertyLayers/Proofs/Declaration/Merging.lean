import PropertyLayers.Declaration.Merge
import PropertyLayers.Proofs.Declaration.Levels

/-!
# Merged levels in one piece

Merging declarations fails with the first level that cannot be folded, cut off or not. Otherwise the
merged locations are those of the levels up to the first one that does not inherit locations, the
furthest level first, and the merged properties likewise with a cut of their own
(`mergeDeclarations_concatenation`).
-/

namespace PropertyLayers

/-- The levels from the most derived one to the first that does not inherit, which still counts. -/
def uncut {α : Type} (inherits : α → Bool) (levels : List α) : List α :=
  levels.take (levels.findIdx (fun level => !inherits level) + 1)

section Uncut

variable {α : Type} {inherits : α → Bool}

theorem uncut_nil : uncut inherits [] = [] := rfl

theorem uncut_cons (level : α) (ancestors : List α) :
    uncut inherits (level :: ancestors) =
      level :: if inherits level then uncut inherits ancestors else [] := by
  rw [uncut, List.findIdx_cons]
  rcases h : inherits level with _ | _
  · simp
  · simp [uncut]

/-- Among levels in ascending order one counts where every level below it inherits. -/
theorem mem_uncut_iff {index : α → Nat} {level : α} :
    ∀ {levels : List α}, (levels.Pairwise fun a b => index a < index b) →
      (level ∈ uncut inherits levels ↔
        level ∈ levels ∧ ∀ other ∈ levels, index other < index level → inherits other)
  | [], _ => by simp [uncut_nil]
  | first :: ancestors, h => by
    obtain ⟨hfirst, hrest⟩ := List.pairwise_cons.mp h
    have ih : level ∈ uncut inherits ancestors ↔ _ := mem_uncut_iff hrest
    rw [uncut_cons, List.mem_cons, List.mem_cons]
    constructor
    · rintro (rfl | hl)
      · refine ⟨.inl rfl, fun other ho hlt => ?_⟩
        rcases List.mem_cons.mp ho with rfl | ho
        · omega
        · have := hfirst other ho
          omega
      · split at hl
        · rename_i hi
          obtain ⟨hmem, hall⟩ := ih.mp hl
          refine ⟨.inr hmem, fun other ho hlt => ?_⟩
          rcases List.mem_cons.mp ho with rfl | ho
          · exact hi
          · exact hall other ho hlt
        · simp at hl
    · rintro ⟨rfl | hl, hall⟩
      · exact .inl rfl
      · have hi := hall first List.mem_cons_self (hfirst level hl)
        rw [if_pos hi]
        exact .inr (ih.mpr ⟨hl, fun other ho => hall other (List.mem_cons_of_mem first ho)⟩)

theorem uncut_map {β : Type} {other : β → Bool} {f : β → α}
    (h : ∀ b, inherits (f b) = other b) (levels : List β) :
    uncut inherits (levels.map f) = (uncut other levels).map f := by
  induction levels with
  | nil => rfl
  | cons level ancestors ih =>
    rw [List.map_cons, uncut_cons, uncut_cons, h level, List.map_cons, ih]
    split <;> rfl

end Uncut

namespace FoldedLevel

theorem mergeLocations_eq (levels : List FoldedLevel) :
    mergeLocations levels =
      (uncut inheritLocations levels).reverse.flatMap fun level =>
        level.locations.map level.declaring.canonical := by
  induction levels with
  | nil => rfl
  | cons level ancestors ih =>
    rw [mergeLocations, ih, uncut_cons, List.reverse_cons, List.flatMap_append,
      List.flatMap_singleton]
    split <;> rfl

theorem mergeProperties_eq (levels : List FoldedLevel) :
    mergeProperties levels = (uncut inheritProperties levels).reverse.flatMap properties := by
  induction levels with
  | nil => rfl
  | cons level ancestors ih =>
    rw [mergeProperties, ih, uncut_cons, List.reverse_cons, List.flatMap_append,
      List.flatMap_singleton]
    split <;> rfl

end FoldedLevel

namespace Level

variable {loader : Loader} {suffix : Text}

/-- What folding each level comes to, amid the packages that the levels before it make known. -/
def outcomes (loader : Loader) (suffix : Text) (known : List Text) :
    List Level → List (Except Failure FoldedLevel)
  | [] => []
  | level :: ancestors =>
    level.fold loader suffix known
      :: outcomes loader suffix (level.knownAfter loader suffix known) ancestors

/-- Folding all levels fails with the first that fails, or gives what all of them come to. -/
theorem foldAll_cases :
    ∀ (levels : List Level) (known : List Text),
      (∃ (done : List FoldedLevel) (failure : Failure) (rest : List (Except Failure FoldedLevel)),
          outcomes loader suffix known levels = done.map .ok ++ .error failure :: rest
            ∧ foldAll loader suffix known levels = .error failure)
        ∨ ∃ folded, outcomes loader suffix known levels = folded.map .ok
            ∧ foldAll loader suffix known levels = .ok folded
  | [], _ => .inr ⟨[], rfl, rfl⟩
  | level :: ancestors, known => by
    rcases hf : level.fold loader suffix known with failure | folded
    · refine .inl ⟨[], failure,
        outcomes loader suffix (level.knownAfter loader suffix known) ancestors, ?_, ?_⟩
      · rw [outcomes, hf]
        rfl
      · rw [foldAll, hf]
        rfl
    · rcases foldAll_cases ancestors (level.knownAfter loader suffix known) with
        ⟨done, failure, rest, ho, ha⟩ | ⟨others, ho, ha⟩
      · refine .inl ⟨folded :: done, failure, rest, ?_, ?_⟩
        · rw [outcomes, hf, ho]
          rfl
        · rw [foldAll, hf, ha]
          rfl
      · refine .inr ⟨folded :: others, ?_, ?_⟩
        · rw [outcomes, hf, ho]
          rfl
        · rw [foldAll, hf, ha]
          rfl

end Level

variable {loader : Loader} {suffix : Text}

theorem mergeDeclarations_of_error {declarations : List Declaration} {failure : Failure}
    (h : Level.foldAll loader suffix [] (Declaration.levels declarations) = .error failure) :
    mergeDeclarations loader suffix declarations = .error failure := by
  simp only [mergeDeclarations, h]
  rfl

theorem mergeDeclarations_of_ok {declarations : List Declaration} {folded : List FoldedLevel}
    (h : Level.foldAll loader suffix [] (Declaration.levels declarations) = .ok folded) :
    let known := Level.knownAfterAll loader suffix (Declaration.levels declarations)
    mergeDeclarations loader suffix declarations =
      .ok ⟨(uncut FoldedLevel.inheritLocations folded).reverse.flatMap fun level =>
          level.locations.map (level.declaring.amid known).canonical,
        (uncut FoldedLevel.inheritProperties folded).reverse.flatMap FoldedLevel.properties⟩ := by
  intro known
  have hm : mergeDeclarations loader suffix declarations =
      .ok ⟨FoldedLevel.mergeLocations (folded.map (·.amid known)),
        FoldedLevel.mergeProperties (folded.map (·.amid known))⟩ := by
    simp only [mergeDeclarations, h]
    rfl
  rw [hm, FoldedLevel.mergeLocations_eq, FoldedLevel.mergeProperties_eq,
    uncut_map (fun _ => rfl), uncut_map (fun _ => rfl), ← List.map_reverse, ← List.map_reverse,
    List.flatMap_map, List.flatMap_map]
  rfl

/-- Merging fails with the first level that cannot be folded, and else puts the levels together that
are not cut off. The two cuts are independent of each other. -/
theorem mergeDeclarations_concatenation (loader : Loader) (suffix : Text)
    (declarations : List Declaration) :
    let levels := Declaration.levels declarations
    let known := Level.knownAfterAll loader suffix levels
    Grouping declarations levels
      ∧ ((∃ (done : List FoldedLevel) (failure : Failure)
            (rest : List (Except Failure FoldedLevel)),
            Level.outcomes loader suffix [] levels = done.map .ok ++ .error failure :: rest
              ∧ mergeDeclarations loader suffix declarations = .error failure)
          ∨ ∃ folded, Level.outcomes loader suffix [] levels = folded.map .ok
              ∧ mergeDeclarations loader suffix declarations =
                .ok ⟨(uncut FoldedLevel.inheritLocations folded).reverse.flatMap fun level =>
                    level.locations.map (level.declaring.amid known).canonical,
                  (uncut FoldedLevel.inheritProperties folded).reverse.flatMap
                    FoldedLevel.properties⟩) := by
  intro levels known
  refine ⟨Declaration.grouping_levels declarations, ?_⟩
  rcases Level.foldAll_cases levels [] with ⟨done, failure, rest, ho, ha⟩ | ⟨folded, ho, ha⟩
  · exact .inl ⟨done, failure, rest, ho, mergeDeclarations_of_error ha⟩
  · exact .inr ⟨folded, ho, mergeDeclarations_of_ok ha⟩

end PropertyLayers
