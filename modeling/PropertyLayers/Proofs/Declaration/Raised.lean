import Mathlib.Data.List.Sort
import PropertyLayers.Proofs.Declaration.Folding

/-!
# Levels further up

Seen from a class, all that its base declares stands one level further up. The levels are the same
but for their numbers (`levels_map_raised`), behind those that the class has of its own
(`levels_own_append`), and they come to the same, but that a failure may tell another number
(`foldAll_raised`).
-/

namespace PropertyLayers

def Declaration.raised (d : Declaration) : Declaration := { d with level := d.level + 1 }

def Level.raised (level : Level) : Level where
  index := level.index + 1
  declarations := level.declarations.map Declaration.raised
  nonempty := by simp [level.nonempty]

def FoldedLevel.raised (level : FoldedLevel) : FoldedLevel :=
  { level with index := level.index + 1 }

/-- The failure without the number of its level. -/
def Failure.unnumbered : Failure → Failure
  | .inconsistent conflict declaring _ => .inconsistent conflict declaring 0
  | failure => failure

/-- The same value, or failures that are the same but for the number of a level. -/
inductive SameButNumber {α : Type} : Except Failure α → Except Failure α → Prop
  | ok (value : α) : SameButNumber (.ok value) (.ok value)
  | error {a b : Failure} : a.unnumbered = b.unnumbered → SameButNumber (.error a) (.error b)

namespace SameButNumber

variable {α β : Type} {x y : Except Failure α}

theorem map (h : SameButNumber x y) (f : α → β) : SameButNumber (x.map f) (y.map f) := by
  cases h with
  | ok value => exact .ok (f value)
  | error he => exact .error he

theorem bind {f g : α → Except Failure β} (h : SameButNumber x y)
    (hf : ∀ a, SameButNumber (f a) (g a)) : SameButNumber (x >>= f) (y >>= g) := by
  cases h with
  | ok value => exact hf value
  | error he => exact .error he

theorem eq_ok {value : α} (h : SameButNumber x (.ok value)) : x = .ok value := by
  cases h
  rfl

end SameButNumber

namespace Grouping

variable {declarations : List Declaration} {levels : List Level}

theorem raised (h : Grouping declarations levels) :
    Grouping (declarations.map Declaration.raised) (levels.map Level.raised) where
  ascending := List.pairwise_map.mpr (h.ascending.imp Nat.succ_lt_succ)
  covered := by
    rintro _ hraised
    obtain ⟨d, hd, rfl⟩ := List.mem_map.mp hraised
    obtain ⟨level, hl, hi⟩ := h.covered d hd
    exact ⟨level.raised, List.mem_map_of_mem hl, congrArg (· + 1) hi⟩
  content := by
    rintro _ hraised
    obtain ⟨level, hl, rfl⟩ := List.mem_map.mp hraised
    have hdeclarations : level.raised.declarations =
        (declarations.filter fun d => d.level = level.index).map Declaration.raised :=
      congrArg _ (h.content level hl)
    rw [hdeclarations, List.filter_map]
    refine congrArg _ (List.filter_congr fun d _ => ?_)
    simp [Declaration.raised, Level.raised]

/-- A level below all others comes first. -/
theorem cons (h : Grouping declarations levels) {own : Level}
    (hown : ∀ d ∈ own.declarations, d.level = own.index)
    (hbelow : ∀ level ∈ levels, own.index < level.index) :
    Grouping (own.declarations ++ declarations) (own :: levels) where
  ascending := List.pairwise_cons.mpr ⟨hbelow, h.ascending⟩
  covered d hd := by
    rcases List.mem_append.mp hd with hd | hd
    · exact ⟨own, List.mem_cons_self, (hown d hd).symm⟩
    · obtain ⟨level, hl, hi⟩ := h.covered d hd
      exact ⟨level, List.mem_cons_of_mem own hl, hi⟩
  content level hl := by
    rw [List.filter_append]
    rcases List.mem_cons.mp hl with rfl | hl
    · have hothers : (declarations.filter fun d => d.level = level.index) = [] := by
        refine List.filter_eq_nil_iff.mpr fun d hd => ?_
        obtain ⟨other, ho, hi⟩ := h.covered d hd
        have := hbelow other ho
        simp only [decide_eq_true_eq]
        omega
      rw [hothers, List.append_nil, List.filter_eq_self.mpr]
      simpa using hown
    · have hnone : (own.declarations.filter fun d => d.level = level.index) = [] := by
        refine List.filter_eq_nil_iff.mpr fun d hd => ?_
        have := hbelow level hl
        rw [hown d hd, decide_eq_true_eq]
        omega
      rw [hnone, List.nil_append, h.content level hl]

end Grouping

namespace Declaration

theorem levels_map_raised (declarations : List Declaration) :
    levels (declarations.map raised) = (levels declarations).map Level.raised :=
  (grouping_levels declarations).raised.eq_levels.symm

/-- Below what is raised, declarations at level 0 make up a level of their own. -/
theorem levels_own_append {own : Level} (hindex : own.index = 0)
    (hown : ∀ d ∈ own.declarations, d.level = 0) (declarations : List Declaration) :
    levels (own.declarations ++ declarations.map raised) =
      own :: (levels declarations).map Level.raised := by
  refine ((grouping_levels declarations).raised.cons ?_ fun level hl => ?_).eq_levels.symm
  · rw [hindex]
    exact hown
  · obtain ⟨_, -, rfl⟩ := List.mem_map.mp hl
    rw [hindex]
    exact Nat.succ_pos _

end Declaration

namespace Level

variable {loader : Loader} {suffix : Text}

theorem ordered_raised (level : Level) :
    level.raised.ordered = level.ordered.map Declaration.raised := by
  rw [ordered, ordered, List.map_mergeSort (s := fun a b => b.distance ≤ a.distance)]
  · rfl
  · exact fun _ _ _ _ => rfl

theorem lead_raised (level : Level) : level.raised.lead = level.lead.raised := by
  simp only [lead, ordered_raised, List.head_map]

theorem inconsistency?_raised (level : Level) :
    level.raised.inconsistency?.map Failure.unnumbered =
      level.inconsistency?.map Failure.unnumbered := by
  rw [inconsistency?, inconsistency?, ordered_raised, lead_raised, List.findSome?_map,
    List.map_findSome?, List.map_findSome?]
  refine congrArg (List.findSome? · _) (funext fun d => ?_)
  have hconflict : conflict? level.lead.raised d.raised = conflict? level.lead d := rfl
  simp only [Function.comp_apply, hconflict]
  rcases conflict? level.lead d with _ | conflict <;> rfl

theorem isNone_inconsistency?_raised (level : Level) :
    level.raised.inconsistency?.isNone = level.inconsistency?.isNone := by
  have h := congrArg Option.isNone level.inconsistency?_raised
  simpa using h

theorem isBlank_raised (level : Level) : level.raised.isBlank = level.isBlank := by
  rw [isBlank, isBlank, ordered_raised, List.all_map]
  rfl

theorem defaultLocation_raised (level : Level) (known : List Text) :
    level.raised.defaultLocation suffix known = level.defaultLocation suffix known := by
  rw [defaultLocation, defaultLocation, lead_raised]
  rfl

theorem defaultLocation?_raised (level : Level) (known : List Text) :
    level.raised.defaultLocation? suffix known = level.defaultLocation? suffix known := by
  rw [defaultLocation?, defaultLocation?, isNone_inconsistency?_raised, isBlank_raised,
    defaultLocation_raised]

theorem knownAfter_raised (level : Level) (known : List Text) :
    level.raised.knownAfter loader suffix known = level.knownAfter loader suffix known := by
  rw [knownAfter, knownAfter, defaultLocation?_raised]

theorem fold_raised (loader : Loader) (suffix : Text) (level : Level) (known : List Text) :
    SameButNumber (level.raised.fold loader suffix known)
      ((level.fold loader suffix known).map FoldedLevel.raised) := by
  have hlocations : level.raised.ordered.flatMap (fun d => d.locations) =
      level.ordered.flatMap fun d => d.locations := by
    rw [ordered_raised, List.flatMap_map]
    rfl
  have hproperties : level.raised.ordered.flatMap (fun d => d.properties) =
      level.ordered.flatMap fun d => d.properties := by
    rw [ordered_raised, List.flatMap_map]
    rfl
  have hinconsistency := level.inconsistency?_raised
  rcases hc : level.inconsistency? with _ | failure <;> rw [hc] at hinconsistency
  · have hr : level.raised.inconsistency? = none := by simpa using hinconsistency
    simp only [fold, hc, hr, defaultLocation?_raised, defaultLocation_raised, knownAfter_raised,
      lead_raised, hlocations, hproperties]
    rcases level.defaultLocation? suffix known with _ | location
    · exact .ok _
    · rcases hhas : loader.has location with failure | _ | _
      · simp only [hhas]
        exact .error rfl
      · simp only [hhas]
        exact .error rfl
      · simp only [hhas]
        exact .ok _
  · obtain ⟨other, hr, he⟩ := Option.map_eq_some_iff.mp hinconsistency
    simp only [fold, hc, hr]
    exact .error he

theorem foldAll_raised (loader : Loader) (suffix : Text) :
    ∀ (levels : List Level) (known : List Text),
      SameButNumber (foldAll loader suffix known (levels.map raised))
        ((foldAll loader suffix known levels).map (List.map FoldedLevel.raised))
  | [], _ => .ok []
  | level :: ancestors, known => by
    have hfold := level.fold_raised loader suffix known
    have hrest := foldAll_raised loader suffix ancestors (level.knownAfter loader suffix known)
    have hmap : ∀ (x : Except Failure FoldedLevel) (y : Except Failure (List FoldedLevel)),
        (do return (← x) :: (← y) : Except Failure (List FoldedLevel)).map
            (List.map FoldedLevel.raised) =
          do return (← x.map FoldedLevel.raised) :: (← y.map (List.map FoldedLevel.raised)) := by
      intro x y
      cases x <;> cases y <;> rfl
    rw [List.map_cons, foldAll, foldAll, knownAfter_raised, hmap]
    exact hfold.bind fun folded => hrest.bind fun others => .ok (folded :: others)

theorem foldl_knownAfter_raised (levels : List Level) (known : List Text) :
    (levels.map raised).foldl (knownAfter loader suffix) known =
      levels.foldl (knownAfter loader suffix) known := by
  rw [List.foldl_map]
  simp only [knownAfter_raised]

end Level

end PropertyLayers
