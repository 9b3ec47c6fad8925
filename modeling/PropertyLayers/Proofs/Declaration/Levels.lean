import Mathlib.Data.List.Sort
import PropertyLayers.Declaration.Basic
import PropertyLayers.Proofs.Sorted

/-!
# The levels of declarations

The levels stand in strictly ascending order, and each holds the declarations of its number in the
order in which they are given (`grouping_levels`). No other levels do (`Grouping.eq_levels`).
-/

namespace PropertyLayers

/-- These levels are the declarations put together by level, the most derived first. -/
structure Grouping (declarations : List Declaration) (levels : List Level) : Prop where
  ascending : levels.Pairwise fun a b => a.index < b.index
  covered : ∀ d ∈ declarations, ∃ level ∈ levels, level.index = d.level
  content : ∀ level ∈ levels,
    level.declarations = declarations.filter fun d => d.level = level.index

/-- All that a level is made of. -/
def Level.content (level : Level) : Nat × List Declaration := (level.index, level.declarations)

theorem Level.content_injective : Function.Injective Level.content := by
  rintro ⟨i, ds, _⟩ ⟨j, es, _⟩ h
  cases h
  rfl

namespace Declaration

theorem nodup_eraseDups : ∀ is : List Nat, is.eraseDups.Nodup
  | [] => by simp
  | i :: is => by
    rw [List.eraseDups_cons, List.nodup_cons, List.mem_eraseDups]
    exact ⟨by simp, nodup_eraseDups _⟩
termination_by is => is.length
decreasing_by exact Nat.lt_succ_of_le (List.length_filter_le _ _)

theorem levelIndexes_pairwise (declarations : List Declaration) :
    (levelIndexes declarations).Pairwise (· < ·) :=
  strictly_ascending_mergeSort (nodup_eraseDups _)

theorem levels_index (declarations : List Declaration) :
    (levels declarations).map Level.index = levelIndexes declarations := by
  rw [levels, List.map_map]
  exact List.attach_map_subtype_val _

theorem content_levels (declarations : List Declaration) :
    (levels declarations).map Level.content =
      (levelIndexes declarations).map fun i => (i, atLevel declarations i) := by
  rw [levels, List.map_map]
  exact List.attach_map_val (f := fun i => (i, atLevel declarations i))

theorem grouping_levels (declarations : List Declaration) :
    Grouping declarations (levels declarations) where
  ascending := by
    rw [← List.pairwise_map, levels_index]
    exact levelIndexes_pairwise declarations
  covered d hd := by
    have hi : d.level ∈ (levels declarations).map Level.index := by
      rw [levels_index]
      exact mem_levelIndexes.mpr ⟨d, hd, rfl⟩
    obtain ⟨level, hl, he⟩ := List.mem_map.mp hi
    exact ⟨level, hl, he⟩
  content level hl := by
    obtain ⟨i, -, rfl⟩ := List.mem_map.mp hl
    rfl

end Declaration

namespace Grouping

variable {declarations : List Declaration} {levels : List Level}

theorem mem_iff (h : Grouping declarations levels) {level : Level} (hl : level ∈ levels)
    {d : Declaration} : d ∈ level.declarations ↔ d ∈ declarations ∧ d.level = level.index := by
  rw [h.content level hl, List.mem_filter, decide_eq_true_eq]

theorem level_eq (h : Grouping declarations levels) {level : Level} (hl : level ∈ levels)
    {d : Declaration} (hd : d ∈ level.declarations) : d.level = level.index :=
  ((h.mem_iff hl).mp hd).2

theorem eq_of_index (h : Grouping declarations levels) {a b : Level} (ha : a ∈ levels)
    (hb : b ∈ levels) (hi : a.index = b.index) : a = b := by
  obtain ⟨i, as, _⟩ := a
  obtain ⟨j, bs, _⟩ := b
  have hda := h.content _ ha
  have hdb := h.content _ hb
  simp only at hi hda hdb
  subst hi
  rw [← hdb] at hda
  subst hda
  rfl

theorem mem_indexes_iff (h : Grouping declarations levels) {i : Nat} :
    i ∈ levels.map Level.index ↔ ∃ d ∈ declarations, d.level = i := by
  rw [List.mem_map]
  constructor
  · rintro ⟨level, hl, rfl⟩
    obtain ⟨d, hd⟩ := List.exists_mem_of_ne_nil _ level.nonempty
    exact ⟨d, (h.mem_iff hl).mp hd⟩
  · rintro ⟨d, hd, rfl⟩
    exact h.covered d hd

theorem content_eq (h : Grouping declarations levels) :
    levels.map Level.content =
      (levels.map Level.index).map fun i => (i, Declaration.atLevel declarations i) := by
  rw [List.map_map]
  exact List.map_congr_left fun level hl => congrArg (Prod.mk level.index) (h.content level hl)

/-- There is one way to put declarations together by level. -/
theorem eq_levels (h : Grouping declarations levels) : levels = Declaration.levels declarations := by
  have hlevels := Declaration.grouping_levels declarations
  have hindexes : levels.map Level.index = (Declaration.levels declarations).map Level.index := by
    refine List.Pairwise.eq_of_mem_iff (r := (· < ·)) (List.pairwise_map.mpr h.ascending)
      (List.pairwise_map.mpr hlevels.ascending) fun i => ?_
    rw [h.mem_indexes_iff, hlevels.mem_indexes_iff]
  apply List.map_injective_iff.mpr Level.content_injective
  rw [h.content_eq, hlevels.content_eq, hindexes]

end Grouping

end PropertyLayers
