import Mathlib.Data.List.Basic
import PropertyLayers.Proofs.Declaration.Rank

/-!
# The order of merged sources

What is merged stands in the order of the ranks, the one that wins last. The properties are those of
the declarations whose level is not cut off; the locations are those of the declarations and, for a
level that declares nothing, the default one (`ranked_of_mergeDeclarations`).
-/

namespace PropertyLayers

/-- No level below cuts this one off. -/
def Included (inherits : Declaration → Bool) (declarations : List Declaration) (level : Nat) :
    Prop :=
  ∀ d ∈ declarations, d.level < level → inherits d

/-- An inline entry that counts. -/
def PropertyAt (declarations : List Declaration) (rank : Rank) (entry : Text) : Prop :=
  ItemAt (fun d => d.properties) declarations rank entry
    ∧ Included (fun d => d.inheritProperties) declarations rank.level

section Locations

variable (loader : Loader) (suffix : Text) (declarations : List Declaration)

/-- The packages that all levels make known. -/
def packages : List Text :=
  Level.knownAfterAll loader suffix (Declaration.levels declarations)

/-- The packages that the levels below this one make known. -/
def packagesBelow (level : Level) : List Text :=
  Level.knownAfterAll loader suffix
    ((Declaration.levels declarations).filter fun other => other.index < level.index)

/-- The canonical form of a location of a class. -/
def canonicalOf (declaring : TestClass) (location : Text) : Text :=
  (declaring.amid (packages loader suffix declarations)).canonical location

/-- A location that is declared, or the default one of a level that declares nothing. -/
inductive LocatedAt : Rank → Text → Prop
  | declared {rank : Rank} {location : Text} :
      ItemAt (fun d => d.locations.map (canonicalOf loader suffix declarations d.declaring))
        declarations rank location →
      LocatedAt rank location
  | default {level : Level} :
      level ∈ Declaration.levels declarations →
      (∀ d ∈ level.declarations, d.isEmpty) →
      LocatedAt ⟨level.index, 0, 0, 0⟩
        (canonicalOf loader suffix declarations level.lead.declaring
          (level.defaultLocation suffix (packagesBelow loader suffix declarations level)))

/-- A location that counts. -/
def LocationAt (rank : Rank) (location : Text) : Prop :=
  LocatedAt loader suffix declarations rank location
    ∧ Included (fun d => d.inheritLocations) declarations rank.level

end Locations

namespace Ranked

variable {At : Rank → Text → Prop}

theorem congr {At' : Rank → Text → Prop} {texts : List Text} {ranked : List (Rank × Text)}
    (h : Ranked At texts ranked) (hc : ∀ rank text, At rank text ↔ At' rank text) :
    Ranked At' texts ranked :=
  ⟨h.texts_eq, fun rank text => (h.mem_iff rank text).trans (hc rank text), h.ordered⟩

/-- What stands at higher levels comes first. -/
theorem flatMap {α : Type} {index : α → Nat} {texts : α → List Text} :
    ∀ {xs : List α}, (xs.Pairwise fun x y => index y < index x) →
      (∀ x ∈ xs, ∃ ranked,
        Ranked (fun rank text => At rank text ∧ rank.level = index x) (texts x) ranked) →
      ∃ ranked,
        Ranked (fun rank text => At rank text ∧ ∃ x ∈ xs, rank.level = index x) (xs.flatMap texts)
          ranked
  | [], _, _ => ⟨[], rfl, by simp, .nil⟩
  | x :: xs, hp, hx => by
    obtain ⟨hbelow, hxs⟩ := List.pairwise_cons.mp hp
    obtain ⟨first, hfirst⟩ := hx x List.mem_cons_self
    obtain ⟨rest, hrest⟩ := flatMap hxs fun y hy => hx y (List.mem_cons_of_mem x hy)
    refine ⟨first ++ rest, ?_, fun rank text => ?_, ?_⟩
    · rw [List.map_append, hfirst.texts_eq, hrest.texts_eq]
      rfl
    · rw [List.mem_append, hfirst.mem_iff, hrest.mem_iff, ← and_or_left]
      simp
    · refine List.pairwise_append.mpr ⟨hfirst.ordered, hrest.ordered, ?_⟩
      intro a ha b hb
      obtain ⟨-, hal⟩ := (hfirst.mem_iff a.1 a.2).mp ha
      obtain ⟨-, y, hy, hbl⟩ := (hrest.mem_iff b.1 b.2).mp hb
      have hlt := hbelow y hy
      exact .inl (by omega)

end Ranked

section Merged

variable {loader : Loader} {suffix : Text} {declarations : List Declaration}
  {folded : List FoldedLevel}

/-- What comes of the levels of these declarations, one after the other. -/
structure FoldsAll (loader : Loader) (suffix : Text) (declarations : List Declaration)
    (folded : List FoldedLevel) : Prop where
  ascending : folded.Pairwise fun a b => a.index < b.index
  covered : ∀ i, (∃ f ∈ folded, f.index = i) ↔ ∃ d ∈ declarations, d.level = i
  folds : ∀ f ∈ folded, ∃ level ∈ Declaration.levels declarations,
    level.FoldsTo suffix (packagesBelow loader suffix declarations level) f

/-- In ascending order the levels before one are those below it. -/
theorem filter_index_lt {before after : List Level} {level : Level}
    (h : (before ++ level :: after).Pairwise fun a b => a.index < b.index) :
    (before ++ level :: after).filter (fun other => other.index < level.index) = before := by
  obtain ⟨-, hafter, hbefore⟩ := List.pairwise_append.mp h
  have hafter := (List.pairwise_cons.mp hafter).1
  rw [List.filter_append, List.filter_cons_of_neg (by simp), List.filter_eq_self.mpr,
    List.filter_eq_nil_iff.mpr, List.append_nil]
  · intro other ho
    have := hafter other ho
    simp only [decide_eq_true_eq]
    omega
  · intro other ho
    simpa using hbefore other ho level List.mem_cons_self

theorem foldsAll_of_outcomes
    (h : Level.outcomes loader suffix [] (Declaration.levels declarations) = folded.map .ok) :
    FoldsAll loader suffix declarations folded where
  ascending := by
    rw [← List.pairwise_map, Level.index_of_outcomes h, Declaration.levels_index]
    exact Declaration.levelIndexes_pairwise declarations
  covered i := by
    rw [← List.mem_map, Level.index_of_outcomes h, Declaration.levels_index]
    exact Declaration.mem_levelIndexes
  folds f hf := by
    have grouping := Declaration.grouping_levels declarations
    obtain ⟨before, level, after, hl, hfold⟩ := (Level.mem_iff_of_outcomes h).mp hf
    have hbelow : packagesBelow loader suffix declarations level =
        before.foldl (Level.knownAfter loader suffix) [] := by
      rw [packagesBelow, hl, filter_index_lt (hl ▸ grouping.ascending)]
      rfl
    refine ⟨level, by rw [hl]; simp, ?_⟩
    rw [hbelow]
    exact Level.foldsTo_of_fold hfold

section Located

variable {level : Level} {f : FoldedLevel}

/-- A level that declares nothing has its default location and no other. -/
theorem ranked_default (hl : level ∈ Declaration.levels declarations)
    (h : level.FoldsTo suffix (packagesBelow loader suffix declarations level) f)
    (hb : ∀ d ∈ level.declarations, d.isEmpty) :
    ∃ ranked, Ranked
      (fun rank location => LocatedAt loader suffix declarations rank location
        ∧ rank.level = level.index)
      (f.locations.map (canonicalOf loader suffix declarations f.declaring))
      ranked := by
  have grouping := Declaration.grouping_levels declarations
  rw [h.locations, if_pos hb, ← h.lead_declaring]
  refine ⟨[(⟨level.index, 0, 0, 0⟩, _)], rfl, fun rank location => ?_, List.pairwise_singleton _ _⟩
  rw [List.mem_singleton]
  constructor
  · intro he
    cases he
    exact ⟨.default hl hb, rfl⟩
  · rintro ⟨hat, hi⟩
    cases hat with
    | declared hitem =>
      obtain ⟨d, hd, hdl, -, ht⟩ := hitem
      have hd := hb d ((grouping.mem_iff hl).mpr ⟨List.mem_of_getElem? hd, hdl.trans hi⟩)
      simp only [Attachment.isEmpty, Bool.and_eq_true, List.isEmpty_iff] at hd
      simp only [hd.1, List.map_nil] at ht
      cases ht
    | @default other ho _ =>
      cases grouping.eq_of_index ho hl hi
      rfl

/-- The locations that a level declares are those of its declarations. -/
theorem ranked_declared (hl : level ∈ Declaration.levels declarations)
    (h : level.FoldsTo suffix (packagesBelow loader suffix declarations level) f)
    (hb : ¬ ∀ d ∈ level.declarations, d.isEmpty) :
    ∃ ranked, Ranked
      (fun rank location => LocatedAt loader suffix declarations rank location
        ∧ rank.level = level.index)
      (f.locations.map (canonicalOf loader suffix declarations f.declaring))
      ranked := by
  have grouping := Declaration.grouping_levels declarations
  have hlocations :
      f.locations.map (canonicalOf loader suffix declarations f.declaring) =
        level.ordered.flatMap fun d =>
          d.locations.map (canonicalOf loader suffix declarations d.declaring) := by
    rw [h.locations, if_neg hb, List.map_flatMap]
    refine List.flatMap_congr fun d hd => ?_
    rw [h.declaring d (Level.mem_ordered.mp hd)]
  rw [hlocations]
  refine ⟨_, (ranked_level (grouping.content level hl)).congr fun rank location => ?_⟩
  refine and_congr_left fun hi => ⟨.declared, fun hat => ?_⟩
  cases hat with
  | declared hitem => exact hitem
  | @default other ho hblank =>
    cases grouping.eq_of_index ho hl hi
    exact absurd hblank hb

end Located

namespace FoldsAll

theorem mem_uncut_iff (h : FoldsAll loader suffix declarations folded)
    {inherits : FoldedLevel → Bool} {inherits' : Declaration → Bool}
    (hi : ∀ f ∈ folded, ∀ d ∈ declarations, d.level = f.index → inherits' d = inherits f)
    {f : FoldedLevel} :
    f ∈ uncut inherits folded ↔ f ∈ folded ∧ Included inherits' declarations f.index := by
  rw [PropertyLayers.mem_uncut_iff h.ascending]
  refine and_congr_right fun _ => ⟨fun hall d hd hlt => ?_, fun hinc other ho hlt => ?_⟩
  · obtain ⟨other, ho, hl⟩ := (h.covered d.level).mpr ⟨d, hd, rfl⟩
    rw [hi other ho d hd hl.symm]
    exact hall other ho (by omega)
  · obtain ⟨d, hd, hl⟩ := (h.covered other.index).mp ⟨other, ho, rfl⟩
    rw [← hi other ho d hd hl]
    exact hinc d hd (by omega)

/-- What the levels that are not cut off hold, in the order of the ranks. -/
theorem ranked (h : FoldsAll loader suffix declarations folded)
    {inherits : FoldedLevel → Bool} {inherits' : Declaration → Bool}
    (hi : ∀ f ∈ folded, ∀ d ∈ declarations, d.level = f.index → inherits' d = inherits f)
    {At : Rank → Text → Prop} {texts : FoldedLevel → List Text}
    (hlevel : ∀ f ∈ folded, ∃ ranked,
      Ranked (fun rank text => At rank text ∧ rank.level = f.index) (texts f) ranked)
    (hcovered : ∀ rank text, At rank text → ∃ f ∈ folded, f.index = rank.level) :
    ∃ ranked,
      Ranked (fun rank text => At rank text ∧ Included inherits' declarations rank.level)
        ((uncut inherits folded).reverse.flatMap texts) ranked := by
  have hp : (uncut inherits folded).reverse.Pairwise fun f g => g.index < f.index :=
    List.pairwise_reverse.mpr (h.ascending.sublist (List.take_sublist _ _))
  obtain ⟨ranked, hranked⟩ := Ranked.flatMap hp fun f hf =>
    hlevel f (h.mem_uncut_iff hi |>.mp (List.mem_reverse.mp hf)).1
  refine ⟨ranked, hranked.congr fun rank text => and_congr_right fun hat => ?_⟩
  constructor
  · rintro ⟨f, hf, hr⟩
    rw [hr]
    exact ((h.mem_uncut_iff hi).mp (List.mem_reverse.mp hf)).2
  · intro hinc
    obtain ⟨f, hf, hr⟩ := hcovered rank text hat
    rw [← hr] at hinc
    exact ⟨f, List.mem_reverse.mpr ((h.mem_uncut_iff hi).mpr ⟨hf, hinc⟩), hr.symm⟩

theorem ranked_properties (h : FoldsAll loader suffix declarations folded) :
    ∃ ranked, Ranked (PropertyAt declarations)
      ((uncut FoldedLevel.inheritProperties folded).reverse.flatMap FoldedLevel.properties)
      ranked := by
  have grouping := Declaration.grouping_levels declarations
  refine h.ranked (fun f hf d hd hl => ?_) (fun f hf => ?_) fun rank text hat => ?_
  · obtain ⟨level, hlevel, hfolds⟩ := h.folds f hf
    exact hfolds.inheritProperties d ((grouping.mem_iff hlevel).mpr ⟨hd, hl.trans hfolds.index⟩)
  · obtain ⟨level, hlevel, hfolds⟩ := h.folds f hf
    rw [hfolds.properties, hfolds.index]
    exact ⟨_, ranked_level (grouping.content level hlevel)⟩
  · obtain ⟨d, hd, hl, -⟩ := hat
    exact (h.covered rank.level).mpr ⟨d, List.mem_of_getElem? hd, hl⟩

theorem ranked_locations (h : FoldsAll loader suffix declarations folded) :
    ∃ ranked, Ranked (LocationAt loader suffix declarations)
      ((uncut FoldedLevel.inheritLocations folded).reverse.flatMap fun f =>
        f.locations.map (canonicalOf loader suffix declarations f.declaring))
      ranked := by
  have grouping := Declaration.grouping_levels declarations
  refine h.ranked (fun f hf d hd hl => ?_) (fun f hf => ?_) fun rank text hat => ?_
  · obtain ⟨level, hlevel, hfolds⟩ := h.folds f hf
    exact hfolds.inheritLocations d ((grouping.mem_iff hlevel).mpr ⟨hd, hl.trans hfolds.index⟩)
  · obtain ⟨level, hlevel, hfolds⟩ := h.folds f hf
    rw [hfolds.index]
    by_cases hb : ∀ d ∈ level.declarations, d.isEmpty
    · exact ranked_default hlevel hfolds hb
    · exact ranked_declared hlevel hfolds hb
  · cases hat with
    | declared hitem =>
      obtain ⟨d, hd, hl, -⟩ := hitem
      exact (h.covered rank.level).mpr ⟨d, List.mem_of_getElem? hd, hl⟩
    | @default level hlevel _ =>
      obtain ⟨d, hd⟩ := List.exists_mem_of_ne_nil _ level.nonempty
      obtain ⟨hd, hl⟩ := (grouping.mem_iff hlevel).mp hd
      exact (h.covered level.index).mpr ⟨d, hd, hl⟩

end FoldsAll

/-- What merging succeeds with stands in the order of the ranks. -/
theorem ranked_of_mergeDeclarations {merged : MergedSources}
    (h : mergeDeclarations loader suffix declarations = .ok merged) :
    (∃ ranked, Ranked (PropertyAt declarations) merged.properties ranked)
      ∧ ∃ ranked, Ranked (LocationAt loader suffix declarations) merged.locations ranked := by
  rcases Level.foldAll_cases (Declaration.levels declarations) [] with
    ⟨_, _, _, _, ha⟩ | ⟨folded, ho, ha⟩
  · rw [mergeDeclarations_of_error ha] at h
    cases h
  · rw [mergeDeclarations_of_ok ha] at h
    cases h
    have hall := foldsAll_of_outcomes ho
    exact ⟨hall.ranked_properties, hall.ranked_locations⟩

end Merged

end PropertyLayers
