import Mathlib
import PropertyLayers.Proofs.Declaration.Rank
import PropertyLayers.Proofs.Hierarchy.Linearized
import PropertyLayers.Proofs.Resource.Foreign

/-!
# Levels of a hierarchy

The declarations of a class are put together by level, and what comes of it are the classes of its
order again: each class that has been given something makes up one level, with its place in the
order as the number (`content_levels_declarations`). So the declarations of a level are always of
one class, and merging has no cause to fail over the class of a declaration (`levels_of_order`).
The class that all others are derived from can be given nothing, and is left out of the orders, at
whose end it would stand.
-/

namespace PropertyLayers

theorem Conflict.aspect_eq_declaring_iff {conflict : Conflict} :
    conflict.aspect = "declaring_unit" ↔
      ∃ previous current, conflict = .declaringClass previous current := by
  constructor
  · intro h
    cases conflict with
    | declaringClass previous current => exact ⟨previous, current, rfl⟩
    | inheritLocations => cases h
    | inheritProperties => cases h
  · rintro ⟨previous, current, rfl⟩
    rfl

namespace Level

variable {loader : Loader} {suffix : Text} {level : Level}

/-- Where levels cannot be folded, there is one among them that cannot. -/
theorem exists_fold_of_foldAll_error {failure : Failure} :
    ∀ {levels : List Level} {known : List Text},
      foldAll loader suffix known levels = .error failure →
        ∃ level ∈ levels, ∃ known, level.fold loader suffix known = .error failure
  | [], _, h => by cases h
  | level :: ancestors, known, h => by
    rw [foldAll] at h
    rcases bind_eq_error_iff.mp h with hfold | ⟨folded, -, hrest⟩
    · exact ⟨level, List.mem_cons_self, known, hfold⟩
    rcases bind_eq_error_iff.mp hrest with hothers | ⟨_, -, hpure⟩
    · obtain ⟨other, ho, hfold⟩ := exists_fold_of_foldAll_error hothers
      exact ⟨other, List.mem_cons_of_mem level ho, hfold⟩
    · cases hpure

/-- A level of one class does not fail over the class of a declaration. What the loader answers is
another matter. -/
theorem has_of_fold_declaringClass {a previous current declaring : TestClass} {index : Nat}
    {known : List Text} (ha : ∀ d ∈ level.declarations, d.declaring = a)
    (h : level.fold loader suffix known =
      .error (.inconsistent (.declaringClass previous current) declaring index)) :
    ∃ location, loader.has location =
      .error (.inconsistent (.declaringClass previous current) declaring index) := by
  cases fold_eq_iff.mp h with
  | @inconsistent d _ hfirst =>
    obtain ⟨before, after, hordered, -⟩ := hfirst.place
    have hd : d ∈ level.declarations := by
      rw [← mem_ordered, ordered_eq_lead_cons, hordered]
      simp
    have hlead : level.lead ∈ level.declarations :=
      mem_ordered.mp (List.head_mem level.ordered_ne_nil)
    cases hfirst.difference with
    | declaringClass hne => exact absurd ((ha _ hlead).trans (ha d hd).symm) hne
  | refused _ _ hhas => exact ⟨_, hhas⟩

end Level

theorem exists_fold_of_mergeDeclarations_error {loader : Loader} {suffix : Text}
    {declarations : List Declaration} {failure : Failure}
    (h : mergeDeclarations loader suffix declarations = .error failure) :
    ∃ level ∈ Declaration.levels declarations, ∃ known,
      level.fold loader suffix known = .error failure := by
  rw [mergeDeclarations] at h
  rcases bind_eq_error_iff.mp h with hfold | ⟨_, -, hpure⟩
  · exact Level.exists_fold_of_foldAll_error hfold
  · cases hpure

namespace Hierarchy

variable {h : Hierarchy} {c : TestClass}

/-- The classes of the order that have been given something, each with its place. -/
def declaredPlaces (h : Hierarchy) (c : TestClass) : List (TestClass × Nat) :=
  (h.order c).zipIdx.filter fun place => h.attachments place.1 ≠ []

theorem mem_declaredPlaces {a : TestClass} {i : Nat} :
    (a, i) ∈ h.declaredPlaces c ↔ (h.order c)[i]? = some a ∧ h.attachments a ≠ [] := by
  rw [declaredPlaces, List.mem_filter, List.mk_mem_zipIdx_iff_getElem?, decide_eq_true_eq]

theorem declarationsAt_ne_nil {a : TestClass} {i : Nat} :
    h.declarationsAt a i ≠ [] ↔ h.attachments a ≠ [] := by
  rw [declarationsAt, ne_eq, List.map_eq_nil_iff]

theorem place_of_mem_declarationsAt {a : TestClass} {i : Nat} {d : Declaration}
    (hd : d ∈ h.declarationsAt a i) : d.declaring = a ∧ d.level = i := by
  obtain ⟨attachment, -, rfl⟩ := List.mem_map.mp hd
  exact ⟨rfl, rfl⟩

theorem mem_declarations_iff {d : Declaration} :
    d ∈ h.declarations c ↔ ∃ place ∈ h.declaredPlaces c, d ∈ h.declarationsAt place.1 place.2 := by
  rw [declarations, List.mem_flatMap]
  constructor
  · rintro ⟨⟨a, i⟩, hplace, hd⟩
    refine ⟨(a, i), mem_declaredPlaces.mpr ⟨?_, ?_⟩, hd⟩
    · exact List.mk_mem_zipIdx_iff_getElem?.mp hplace
    · exact declarationsAt_ne_nil.mp (List.ne_nil_of_mem hd)
  · rintro ⟨⟨a, i⟩, hplace, hd⟩
    exact ⟨(a, i), List.mem_of_mem_filter hplace, hd⟩

/-- The numbers of the levels are the places of the classes that have been given something. -/
theorem levelIndexes_declarations (h : Hierarchy) (c : TestClass) :
    Declaration.levelIndexes (h.declarations c) = (h.declaredPlaces c).map Prod.snd := by
  have hascending : ((h.declaredPlaces c).map Prod.snd).Pairwise (· < ·) := by
    rw [List.pairwise_map]
    exact (zipIdx_pairwise (h.order c)).filter _
  refine List.Pairwise.eq_of_mem_iff (Declaration.levelIndexes_pairwise _) hascending fun i => ?_
  rw [Declaration.mem_levelIndexes, List.mem_map]
  constructor
  · rintro ⟨d, hd, rfl⟩
    obtain ⟨place, hplace, hd⟩ := mem_declarations_iff.mp hd
    exact ⟨place, hplace, (place_of_mem_declarationsAt hd).2.symm⟩
  · rintro ⟨⟨a, i⟩, hplace, rfl⟩
    obtain ⟨d, hd⟩ :=
      List.exists_mem_of_ne_nil _ (declarationsAt_ne_nil.mpr (mem_declaredPlaces.mp hplace).2)
    exact ⟨d, mem_declarations_iff.mpr ⟨(a, i), hplace, hd⟩, (place_of_mem_declarationsAt hd).2⟩

/-- A level for each class that has been given something, in the order of the classes, numbered by
their places, and with what each has been given. -/
theorem content_levels_declarations (h : Hierarchy) (c : TestClass) :
    (Declaration.levels (h.declarations c)).map Level.content =
      (h.declaredPlaces c).map fun place => (place.2, h.declarationsAt place.1 place.2) := by
  rw [Declaration.content_levels, levelIndexes_declarations, List.map_map]
  refine List.map_congr_left fun (a, i) hplace => ?_
  rw [Function.comp_apply, atLevel_declarations (mem_declaredPlaces.mp hplace).1]

/-- A level has the declarations of one class, which stands at its number. -/
theorem exists_place_of_mem_levels {level : Level}
    (hlevel : level ∈ Declaration.levels (h.declarations c)) :
    ∃ a, (a, level.index) ∈ h.declaredPlaces c
      ∧ level.declarations = h.declarationsAt a level.index := by
  have hmem := List.mem_map_of_mem (f := Level.content) hlevel
  rw [content_levels_declarations] at hmem
  obtain ⟨⟨a, i⟩, hplace, hcontent⟩ := List.mem_map.mp hmem
  obtain ⟨rfl, hdeclarations⟩ := Prod.mk.inj hcontent
  exact ⟨a, hplace, hdeclarations.symm⟩

/-- A class that has been given something and stands in the order once has one level. -/
theorem existsUnique_level (hnodup : (h.order c).Nodup) {a : TestClass} (ha : a ∈ h.order c)
    (hgiven : h.attachments a ≠ []) :
    ∃! level, level ∈ Declaration.levels (h.declarations c)
      ∧ ∀ d ∈ level.declarations, d.declaring = a := by
  obtain ⟨i, hi⟩ := List.mem_iff_getElem?.mp ha
  have hplace : (a, i) ∈ h.declaredPlaces c := mem_declaredPlaces.mpr ⟨hi, hgiven⟩
  have hcontent : (i, h.declarationsAt a i) ∈
      (Declaration.levels (h.declarations c)).map Level.content := by
    rw [content_levels_declarations]
    exact List.mem_map.mpr ⟨(a, i), hplace, rfl⟩
  obtain ⟨level, hlevel, hlevelContent⟩ := List.mem_map.mp hcontent
  obtain ⟨rfl, hdeclarations⟩ := Prod.mk.inj hlevelContent
  refine ⟨level, ⟨hlevel, fun d hd => ?_⟩, fun other ⟨hother, hdeclaring⟩ => ?_⟩
  · rw [hdeclarations] at hd
    exact (place_of_mem_declarationsAt hd).1
  · -- The other level is that of the same class, which stands at no other place.
    obtain ⟨b, hb, hotherDeclarations⟩ := exists_place_of_mem_levels hother
    obtain ⟨d, hd⟩ := List.exists_mem_of_ne_nil _ other.nonempty
    have hba : b = a := by
      rw [← hdeclaring d hd, (place_of_mem_declarationsAt (hotherDeclarations ▸ hd)).1]
    have hotherPlace : (h.order c)[other.index]? = some a := hba ▸ (mem_declaredPlaces.mp hb).1
    have hindex : other.index = level.index := by
      have hlt := (List.getElem?_eq_some_iff.mp hotherPlace).1
      exact (List.getElem?_inj hlt hnodup).mp (hotherPlace.trans hi.symm)
    exact (Declaration.grouping_levels _).eq_of_index hother hlevel hindex

/-- Merging the declarations of a class does not fail over the class of a declaration. -/
theorem has_of_mergeDeclarations_declaringClass {loader : Loader} {suffix : Text}
    {previous current declaring : TestClass} {index : Nat}
    (hmerge : mergeDeclarations loader suffix (h.declarations c) =
      .error (.inconsistent (.declaringClass previous current) declaring index)) :
    ∃ location, loader.has location =
      .error (.inconsistent (.declaringClass previous current) declaring index) := by
  obtain ⟨level, hlevel, known, hfold⟩ := exists_fold_of_mergeDeclarations_error hmerge
  obtain ⟨a, -, hdeclarations⟩ := exists_place_of_mem_levels hlevel
  refine Level.has_of_fold_declaringClass (a := a) (fun d hd => ?_) hfold
  exact (place_of_mem_declarationsAt (hdeclarations ▸ hd)).1

/-- Each class of an order without duplicates that has been given something has a level of its own.
The levels stand in the order of the classes, and each is numbered by the place of its class, where
the classes that have been given nothing count, and has the declarations of its class as they are
given. So merging them fails over the class of a declaration only if the loader does when it
is asked for a default resource, and a class path never does. -/
theorem levels_of_order (hnodup : (h.order c).Nodup) :
    (Declaration.levels (h.declarations c)).map Level.content =
        ((h.declaredPlaces c).map fun place => (place.2, h.declarationsAt place.1 place.2))
      ∧ (∀ a ∈ h.order c, h.attachments a ≠ [] →
          ∃! level, level ∈ Declaration.levels (h.declarations c)
            ∧ ∀ d ∈ level.declarations, d.declaring = a)
      ∧ (∀ loader suffix conflict declaring index,
          mergeDeclarations loader suffix (h.declarations c) =
            .error (.inconsistent conflict declaring index) →
          conflict.aspect = "declaring_unit" →
          ∃ location, loader.has location = .error (.inconsistent conflict declaring index))
      ∧ ∀ (cp : ClassPath) suffix conflict declaring index,
          mergeDeclarations cp.loader suffix (h.declarations c) =
            .error (.inconsistent conflict declaring index) →
          conflict.aspect ≠ "declaring_unit" := by
  refine ⟨content_levels_declarations h c, fun a => existsUnique_level hnodup, ?_, ?_⟩
  · intro loader suffix conflict declaring index hmerge haspect
    obtain ⟨previous, current, rfl⟩ := Conflict.aspect_eq_declaring_iff.mp haspect
    exact has_of_mergeDeclarations_declaringClass hmerge
  · intro cp suffix conflict declaring index hmerge haspect
    obtain ⟨previous, current, rfl⟩ := Conflict.aspect_eq_declaring_iff.mp haspect
    obtain ⟨location, hhas⟩ := has_of_mergeDeclarations_declaringClass hmerge
    obtain ⟨fault, hfault, -⟩ := ClassPath.has_eq_error_iff.mp hhas
    cases hfault

/-- The furthest class and one between it and the most derived one have been given something, and
make up the levels of their places. -/
theorem levels_of_order_diamond :
    let first := oneProperty "first=1" 0
    let second := oneProperty "second=1" 0
    let own := oneProperty "own=1" 0
    let given := ((diamond.attach (caseNamed "A") (.single first)).attach (caseNamed "C")
      (.single own)).attach (caseNamed "A") (.single second)
    (given.order (caseNamed "D")).Nodup
      ∧ (Declaration.levels (given.declarations (caseNamed "D"))).map Level.content =
        [(2, [{ own with declaring := caseNamed "C", level := 2 }]),
          (3, [{ second with declaring := caseNamed "A", level := 3 },
            { first with declaring := caseNamed "A", level := 3 }])]
      ∧ ∀ (cp : ClassPath) suffix conflict declaring index,
        mergeDeclarations cp.loader suffix (given.declarations (caseNamed "D")) =
          .error (.inconsistent conflict declaring index) →
        conflict.aspect ≠ "declaring_unit" := by
  intro first second own given
  have hbuilt : Built given := .attach (.attach (.attach built_diamond))
  have hnodup := nodup_order_of_built hbuilt (caseNamed "D")
  obtain ⟨hlevels, -, -, hmerge⟩ := levels_of_order hnodup
  exact ⟨hnodup, hlevels.trans rfl, hmerge⟩

end Hierarchy

end PropertyLayers
