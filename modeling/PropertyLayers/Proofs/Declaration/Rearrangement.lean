import Mathlib.Data.Fin.VecNotation
import Mathlib.Data.List.Sort
import PropertyLayers.Proofs.Declaration.Merging
import PropertyLayers.Proofs.Sorted

/-!
# Declarations in another order

Declarations may be given in any order that leaves those of one level and one distance in their own.
Sorting is stable (`filter_mergeSort`), so such a rearrangement has the same levels once these are
sorted (`sorted_levels_eq`), and to sort a level changes nothing of what it comes to
(`fold_sorted`). So what comes of merging is the same, failures included
(`mergeDeclarations_rearranged`).
-/

namespace PropertyLayers

/-- The place of each declaration of a list in another one that holds the same declarations, with
those of one level and one distance in the same order. -/
structure Rearrangement (given other : List Declaration) where
  place : Fin given.length ≃ Fin other.length
  same : ∀ i, other.get (place i) = given.get i
  ordered : ∀ i j, i < j → (given.get i).level = (given.get j).level →
    (given.get i).distance = (given.get j).distance → place i < place j

namespace Rearrangement

variable {given other : List Declaration}

theorem filter_eq (r : Rearrangement given other) {p : Declaration → Bool}
    (ties : ∀ d e, p d → p e → d.level = e.level ∧ d.distance = e.distance) :
    given.filter p = other.filter p := by
  have places (ds : List Declaration) :
      ds.filter p = ((List.finRange ds.length).filter (p ∘ ds.get)).map ds.get := by
    rw [← List.filter_map, List.map_get_finRange]
  -- Both sides are the places in the other list where `p` holds, in ascending order.
  have hplaces : ((List.finRange given.length).filter (p ∘ given.get)).map r.place =
      (List.finRange other.length).filter (p ∘ other.get) := by
    refine List.Pairwise.eq_of_mem_iff (r := (· < ·)) ?_
      ((List.pairwise_lt_finRange _).filter _) fun j => ?_
    · rw [List.pairwise_map]
      refine ((List.pairwise_lt_finRange _).filter _).imp_of_mem fun {i j} hi hj hlt => ?_
      obtain ⟨hl, hd⟩ := ties _ _ (List.mem_filter.mp hi).2 (List.mem_filter.mp hj).2
      exact r.ordered i j hlt hl hd
    · simp only [List.mem_map, List.mem_filter, List.mem_finRange, true_and, Function.comp_apply]
      constructor
      · rintro ⟨i, hi, rfl⟩
        rw [r.same]
        exact hi
      · intro hj
        refine ⟨r.place.symm j, ?_, r.place.apply_symm_apply j⟩
        rw [← r.same, r.place.apply_symm_apply]
        exact hj
  have hget : given.get = other.get ∘ r.place := funext fun i => (r.same i).symm
  rw [places given, places other, ← hplaces, hget, List.map_map]

theorem mem_iff (r : Rearrangement given other) {d : Declaration} : d ∈ given ↔ d ∈ other := by
  rw [List.mem_iff_get, List.mem_iff_get]
  constructor
  · rintro ⟨i, rfl⟩
    exact ⟨r.place i, r.same i⟩
  · rintro ⟨j, rfl⟩
    refine ⟨r.place.symm j, ?_⟩
    rw [← r.same, r.place.apply_symm_apply]

theorem levelIndexes_eq (r : Rearrangement given other) :
    Declaration.levelIndexes given = Declaration.levelIndexes other := by
  refine List.Pairwise.eq_of_mem_iff (Declaration.levelIndexes_pairwise given)
    (Declaration.levelIndexes_pairwise other) fun i => ?_
  simp only [Declaration.mem_levelIndexes, r.mem_iff]

end Rearrangement

namespace Level

variable {loader : Loader} {suffix : Text}

/-- The level with its declarations in the order in which they are folded. -/
def sorted (level : Level) : Level := ⟨level.index, level.ordered, level.ordered_ne_nil⟩

theorem ordered_sorted (level : Level) : level.sorted.ordered = level.ordered :=
  List.mergeSort_of_pairwise ((descending_mergeSort _ level.declarations).imp decide_eq_true)

theorem lead_sorted (level : Level) : level.sorted.lead = level.lead := by
  simp only [lead, ordered_sorted]

theorem inconsistency?_sorted (level : Level) :
    level.sorted.inconsistency? = level.inconsistency? := by
  simp only [inconsistency?, lead_sorted, ordered_sorted]
  rfl

theorem defaultLocation_sorted (level : Level) (known : List Text) :
    level.sorted.defaultLocation suffix known = level.defaultLocation suffix known := by
  rw [defaultLocation, lead_sorted]
  rfl

theorem defaultLocation?_sorted (level : Level) (known : List Text) :
    level.sorted.defaultLocation? suffix known = level.defaultLocation? suffix known := by
  rw [defaultLocation?, isBlank, inconsistency?_sorted, defaultLocation_sorted, ordered_sorted]
  rfl

theorem knownAfter_sorted (level : Level) (known : List Text) :
    level.sorted.knownAfter loader suffix known = level.knownAfter loader suffix known := by
  rw [knownAfter, defaultLocation?_sorted]
  rfl

theorem fold_sorted (level : Level) (known : List Text) :
    level.sorted.fold loader suffix known = level.fold loader suffix known := by
  simp only [fold, inconsistency?_sorted, defaultLocation?_sorted, defaultLocation_sorted,
    knownAfter_sorted, lead_sorted, ordered_sorted]
  rfl

theorem foldAll_sorted :
    ∀ (levels : List Level) (known : List Text),
      foldAll loader suffix known (levels.map sorted) = foldAll loader suffix known levels
  | [], _ => rfl
  | level :: ancestors, known => by
    rw [List.map_cons, foldAll, foldAll, fold_sorted, knownAfter_sorted, foldAll_sorted ancestors]

theorem knownAfterAll_sorted (levels : List Level) :
    knownAfterAll loader suffix (levels.map sorted) = knownAfterAll loader suffix levels := by
  rw [knownAfterAll, knownAfterAll, List.foldl_map]
  simp only [knownAfter_sorted]

end Level

/-- The declarations of a level in the order in which they are folded. -/
def orderedAt (declarations : List Declaration) (i : Nat) : List Declaration :=
  (Declaration.atLevel declarations i).mergeSort fun a b => b.distance ≤ a.distance

theorem content_sorted_levels (declarations : List Declaration) :
    ((Declaration.levels declarations).map Level.sorted).map Level.content =
      (Declaration.levelIndexes declarations).map fun i => (i, orderedAt declarations i) := by
  rw [Declaration.levels, List.map_map, List.map_map]
  exact List.attach_map_val (f := fun i => (i, orderedAt declarations i))

section Merging

variable {given other : List Declaration}

theorem filter_orderedAt (declarations : List Declaration) (i k : Nat) :
    (orderedAt declarations i).filter (fun d => d.distance = k) =
      declarations.filter fun d => d.distance = k && d.level = i := by
  rw [orderedAt, filter_mergeSort (descending_trans _) (descending_total _), Declaration.atLevel,
    List.filter_filter]
  intro a b ha hb
  simp only [decide_eq_true_eq] at *
  omega

theorem orderedAt_eq (r : Rearrangement given other) (i : Nat) :
    orderedAt given i = orderedAt other i := by
  refine eq_of_descending (descending_mergeSort _ _) (descending_mergeSort _ _) fun k => ?_
  rw [filter_orderedAt, filter_orderedAt]
  refine r.filter_eq fun d e hd he => ?_
  simp only [Bool.and_eq_true, decide_eq_true_eq] at hd he
  omega

theorem sorted_levels_eq (r : Rearrangement given other) :
    (Declaration.levels given).map Level.sorted = (Declaration.levels other).map Level.sorted := by
  apply List.map_injective_iff.mpr Level.content_injective
  simp only [content_sorted_levels, r.levelIndexes_eq, orderedAt_eq r]

/-- Merging does not depend on the order of what stands at different levels or distances. -/
theorem mergeDeclarations_rearranged (r : Rearrangement given other) (loader : Loader)
    (suffix : Text) :
    mergeDeclarations loader suffix given = mergeDeclarations loader suffix other := by
  simp only [mergeDeclarations]
  rw [← Level.foldAll_sorted (Declaration.levels given),
    ← Level.knownAfterAll_sorted (Declaration.levels given), sorted_levels_eq r,
    Level.foldAll_sorted, Level.knownAfterAll_sorted]

end Merging

/-- A declaration of an ancestor before two of a class that stand at one distance. -/
def ancestorFirst : List Declaration :=
  let base : Declaration :=
    { declaring := ⟨"m", "Base", [], false⟩, level := 1, distance := 0
      locations := [], properties := ["k=0"], inheritLocations := true, inheritProperties := true }
  let derived : Declaration := { base with declaring := ⟨"m", "Derived", [], false⟩, level := 0 }
  [base, { derived with properties := ["k=1"] }, { derived with properties := ["k=2"] }]

def ancestorLast : List Declaration := ancestorFirst.tail ++ ancestorFirst.take 1

def ancestorMoved : Rearrangement ancestorFirst ancestorLast where
  place := (⟨![2, 0, 1], ![1, 2, 0], by unfold Function.LeftInverse; decide,
    by unfold Function.RightInverse Function.LeftInverse; decide⟩ : Equiv.Perm (Fin 3))
  same := by decide
  ordered := by decide

theorem mergeDeclarations_rearranged_ancestor :
    ancestorFirst ≠ ancestorLast
      ∧ mergeDeclarations (.ofEntries []) ".properties" ancestorFirst =
        mergeDeclarations (.ofEntries []) ".properties" ancestorLast :=
  ⟨by decide, mergeDeclarations_rearranged ancestorMoved _ _⟩

end PropertyLayers
