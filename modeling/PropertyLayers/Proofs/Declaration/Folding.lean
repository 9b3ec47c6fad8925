import PropertyLayers.Proofs.Declaration.Merging

/-!
# Levels that can be folded

The declarations of a level that can be folded agree with each other and with what they come to
(`foldsTo_of_fold`). Merging succeeds with what each level comes to amid the packages that the
levels before it make known (`mem_iff_of_outcomes`).
-/

namespace PropertyLayers

/-- What a level comes to that can be folded amid these packages. -/
structure Level.FoldsTo (suffix : Text) (known : List Text) (level : Level)
    (folded : FoldedLevel) : Prop where
  index : folded.index = level.index
  declaring : ∀ d ∈ level.declarations, d.declaring = folded.declaring
  inheritLocations : ∀ d ∈ level.declarations, d.inheritLocations = folded.inheritLocations
  inheritProperties : ∀ d ∈ level.declarations, d.inheritProperties = folded.inheritProperties
  properties : folded.properties = level.ordered.flatMap fun d => d.properties
  locations : folded.locations =
    if ∀ d ∈ level.declarations, d.isEmpty then
      [level.defaultLocation suffix known]
    else level.ordered.flatMap fun d => d.locations

namespace Level

variable {loader : Loader} {suffix : Text} {known : List Text} {level : Level}
  {folded : FoldedLevel}

theorem mem_ordered {d : Declaration} : d ∈ level.ordered ↔ d ∈ level.declarations :=
  level.ordered_perm.mem_iff

theorem FoldsTo.lead_declaring (h : level.FoldsTo suffix known folded) :
    level.lead.declaring = folded.declaring :=
  h.declaring level.lead (mem_ordered.mp (List.head_mem level.ordered_ne_nil))

theorem conflict?_eq_none_iff {lead d : Declaration} :
    conflict? lead d = none ↔
      d.declaring = lead.declaring ∧ d.inheritLocations = lead.inheritLocations
        ∧ d.inheritProperties = lead.inheritProperties := by
  unfold conflict?
  constructor
  · intro h
    split at h
    · cases h
    split at h
    · cases h
    split at h
    · cases h
    rename_i hd hl hp
    exact ⟨(Decidable.not_not.mp hd).symm, (Decidable.not_not.mp hl).symm,
      (Decidable.not_not.mp hp).symm⟩
  · rintro ⟨hd, hl, hp⟩
    rw [if_neg (not_not_intro hd.symm), if_neg (not_not_intro hl.symm),
      if_neg (not_not_intro hp.symm)]

theorem inconsistency?_eq_none_iff :
    level.inconsistency? = none ↔ ∀ d ∈ level.declarations, conflict? level.lead d = none := by
  rw [inconsistency?, List.findSome?_eq_none_iff]
  simp only [mem_ordered, Option.map_eq_none_iff]

theorem isBlank_iff : level.isBlank ↔ ∀ d ∈ level.declarations, d.isEmpty := by
  rw [isBlank, List.all_eq_true]
  simp only [mem_ordered]

theorem foldsTo_of_fold (h : level.fold loader suffix known = .ok folded) :
    level.FoldsTo suffix known folded := by
  unfold fold at h
  split at h
  · cases h
  rename_i hc
  have hagreed d (hd : d ∈ level.declarations) :=
    conflict?_eq_none_iff.mp (inconsistency?_eq_none_iff.mp hc d hd)
  rw [defaultLocation?, hc, Option.isNone_none, Bool.true_and] at h
  by_cases hb : level.isBlank
  · rw [if_pos hb] at h
    simp only at h
    split at h
    · cases h
    · cases h
      refine ⟨rfl, fun d hd => (hagreed d hd).1, fun d hd => (hagreed d hd).2.1,
        fun d hd => (hagreed d hd).2.2, rfl, ?_⟩
      rw [if_pos (isBlank_iff.mp hb)]
    · cases h
  · rw [if_neg hb] at h
    cases h
    refine ⟨rfl, fun d hd => (hagreed d hd).1, fun d hd => (hagreed d hd).2.1,
      fun d hd => (hagreed d hd).2.2, rfl, ?_⟩
    rw [if_neg fun h => hb (isBlank_iff.mpr h)]

theorem mem_iff_of_outcomes :
    ∀ {levels : List Level} {known : List Text} {all : List FoldedLevel},
      outcomes loader suffix known levels = all.map .ok →
        (folded ∈ all ↔ ∃ before level after, levels = before ++ level :: after
          ∧ level.fold loader suffix (before.foldl (knownAfter loader suffix) known) = .ok folded)
  | [], _, [], _ => by simp
  | level :: ancestors, known, first :: others, h => by
    rw [outcomes, List.map_cons, List.cons.injEq] at h
    obtain ⟨hfirst, hothers⟩ := h
    have ih : folded ∈ others ↔ _ := mem_iff_of_outcomes hothers
    rw [List.mem_cons, ih]
    constructor
    · rintro (rfl | ⟨before, other, after, rfl, hf⟩)
      · exact ⟨[], level, ancestors, rfl, hfirst⟩
      · exact ⟨level :: before, other, after, rfl, hf⟩
    · rintro ⟨before, other, after, hl, hf⟩
      rcases before with _ | ⟨first', before⟩
      · cases hl
        exact .inl (Except.ok.inj (hf.symm.trans hfirst))
      · cases hl
        exact .inr ⟨before, other, after, rfl, hf⟩

theorem index_of_outcomes :
    ∀ {levels : List Level} {known : List Text} {all : List FoldedLevel},
      outcomes loader suffix known levels = all.map .ok →
        all.map FoldedLevel.index = levels.map Level.index
  | [], _, [], _ => rfl
  | level :: ancestors, known, first :: others, h => by
    rw [outcomes, List.map_cons, List.cons.injEq] at h
    obtain ⟨hfirst, hothers⟩ := h
    rw [List.map_cons, List.map_cons, (foldsTo_of_fold hfirst).index, index_of_outcomes hothers]

end Level

end PropertyLayers
