import Mathlib.Data.List.Sort
import Mathlib.Data.List.SplitBy
import PropertyLayers.Keyed
import PropertyLayers.Proofs.Declaration.Levels

/-!
# Levels collected in one pass

To put declarations together by level takes one pass, in which each goes behind those of its level
(`collect`). Whatever has been gone through, the collection has the declarations of each level as
they are given (`Collects.collect`, `collects_collected`), so in ascending order it is what the
levels are made of (`content_levels_eq_ascending`). One after the other the levels are the stable
sort of the declarations (`Grouping.joined`), and one ends where the next declaration is of another
level (`Grouping.cut`).
-/

namespace PropertyLayers

namespace Declaration

/-- A declaration goes behind those of its level. A level that is new comes last. -/
def collect (collection : List (Nat × List Declaration)) (d : Declaration) :
    List (Nat × List Declaration) :=
  Keyed.put d.level ((Keyed.find? d.level collection).getD [] ++ [d]) collection

/-- The declarations by level, in the order in which the levels come up. -/
def collected (declarations : List Declaration) : List (Nat × List Declaration) :=
  declarations.foldl collect []

/-- A collection with its levels in ascending order. -/
def ascending (collection : List (Nat × List Declaration)) : List (Nat × List Declaration) :=
  (Keyed.keys collection).mergeSort.map fun i => (i, (Keyed.find? i collection).getD [])

/-- The declarations in ascending order of their levels, those of one level in the order given. -/
def byLevel (declarations : List Declaration) : List Declaration :=
  declarations.mergeSort fun a b => a.level ≤ b.level

end Declaration

section Collecting

variable {declarations : List Declaration} {collection : List (Nat × List Declaration)}

/-- The collection holds these declarations by level, each level once. -/
structure Collects (declarations : List Declaration) (collection : List (Nat × List Declaration)) :
    Prop where
  nodup : (Keyed.keys collection).Nodup
  mem_keys_iff : ∀ i, i ∈ Keyed.keys collection ↔ ∃ d ∈ declarations, d.level = i
  held : ∀ i, (Keyed.find? i collection).getD [] = Declaration.atLevel declarations i

theorem collects_nil : Collects [] [] where
  nodup := List.nodup_nil
  mem_keys_iff := by simp
  held _ := rfl

theorem Declaration.atLevel_concat (declarations : List Declaration) (d : Declaration) (i : Nat) :
    atLevel (declarations ++ [d]) i =
      if d.level = i then atLevel declarations i ++ [d] else atLevel declarations i := by
  rw [atLevel, List.filter_append, atLevel, List.filter_singleton]
  by_cases h : d.level = i <;> simp [h]

theorem Collects.collect (h : Collects declarations collection) (d : Declaration) :
    Collects (declarations ++ [d]) (Declaration.collect collection d) where
  nodup := Keyed.nodup_keys_put h.nodup _ _
  mem_keys_iff i := by
    have hkeys : i ∈ Keyed.keys (Declaration.collect collection d) ↔
        i ∈ Keyed.keys collection ∨ i = d.level := by
      rw [Declaration.collect, Keyed.keys_put]
      split
      · exact ⟨.inl, fun hi => hi.elim id fun he => he ▸ ‹_›⟩
      · simp
    rw [hkeys, h.mem_keys_iff]
    simp [or_and_right, exists_or, eq_comm]
  held i := by
    rw [Declaration.collect, Keyed.find?_put, Declaration.atLevel_concat, ← h.held i]
    split
    · next hi => rw [hi, Option.getD_some]
    · rfl

theorem Collects.collectAll :
    ∀ (more : List Declaration) {declarations : List Declaration}
      {collection : List (Nat × List Declaration)}, Collects declarations collection →
        Collects (declarations ++ more) (more.foldl Declaration.collect collection)
  | [], _, _, h => by simpa using h
  | d :: more, _, _, h => by simpa using collectAll more (h.collect d)

theorem collects_collected (declarations : List Declaration) :
    Collects declarations (Declaration.collected declarations) :=
  Collects.collectAll declarations collects_nil

end Collecting

namespace Declaration

/-- The levels are made of what one pass collects, in ascending order. -/
theorem content_levels_eq_ascending (declarations : List Declaration) :
    (levels declarations).map Level.content = ascending (collected declarations) := by
  have h := collects_collected declarations
  have hindexes : levelIndexes declarations = (Keyed.keys (collected declarations)).mergeSort := by
    refine List.Pairwise.eq_of_mem_iff (levelIndexes_pairwise declarations)
      (strictly_ascending_mergeSort h.nodup) fun i => ?_
    rw [mem_levelIndexes, List.mem_mergeSort, h.mem_keys_iff]
  rw [content_levels, ascending, hindexes]
  exact List.map_congr_left fun i _ => by rw [h.held]

theorem ascending_byLevel (declarations : List Declaration) :
    (byLevel declarations).Pairwise fun a b => a.level ≤ b.level :=
  ascending_mergeSort level declarations

theorem filter_byLevel (declarations : List Declaration) (i : Nat) :
    ((byLevel declarations).filter fun d => d.level = i) = atLevel declarations i := by
  refine filter_mergeSort (ascending_trans level) (ascending_total level) (fun a b ha hb => ?_) _
  simp only [decide_eq_true_eq] at *
  omega

end Declaration

namespace Grouping

variable {declarations : List Declaration} {levels : List Level} {level : Level}

theorem ascending_joined (h : Grouping declarations levels) :
    (levels.flatMap Level.declarations).Pairwise fun a b => a.level ≤ b.level := by
  refine List.pairwise_flatMap.mpr ⟨fun level hl => ?_, ?_⟩
  · refine List.pairwise_of_forall_mem_list fun a ha b hb => ?_
    rw [h.level_eq hl ha, h.level_eq hl hb]
  · refine h.ascending.imp_of_mem fun {x y} hx hy hlt a ha b hb => ?_
    rw [h.level_eq hx ha, h.level_eq hy hb]
    exact hlt.le

theorem filter_flatMap_of_ne (h : Grouping declarations levels) {others : List Level} {i : Nat}
    (ho : ∀ other ∈ others, other ∈ levels ∧ other.index ≠ i) :
    ((others.flatMap Level.declarations).filter fun d => d.level = i) = [] := by
  refine List.filter_eq_nil_iff.mpr fun d hd => ?_
  obtain ⟨other, hother, hd⟩ := List.mem_flatMap.mp hd
  obtain ⟨hl, hne⟩ := ho other hother
  rw [h.level_eq hl hd]
  simpa using hne

/-- One after the other the levels hold the declarations of each level as they are given. -/
theorem filter_joined (h : Grouping declarations levels) (i : Nat) :
    ((levels.flatMap Level.declarations).filter fun d => d.level = i) =
      declarations.filter fun d => d.level = i := by
  by_cases hi : ∃ level ∈ levels, level.index = i
  · -- The levels before this one have a lower number and those after it a higher one.
    obtain ⟨level, hl, rfl⟩ := hi
    obtain ⟨before, after, rfl⟩ := List.append_of_mem hl
    obtain ⟨-, hafter, hbefore⟩ := List.pairwise_append.mp h.ascending
    have hnone : ((before.flatMap Level.declarations).filter fun d => d.level = level.index) = [] :=
      h.filter_flatMap_of_ne fun other ho => ⟨List.mem_append_left _ ho,
        (hbefore other ho level List.mem_cons_self).ne⟩
    have hnoneAfter :
        ((after.flatMap Level.declarations).filter fun d => d.level = level.index) = [] :=
      h.filter_flatMap_of_ne fun other ho => ⟨List.mem_append_right _ (List.mem_cons_of_mem _ ho),
        ((List.pairwise_cons.mp hafter).1 other ho).ne'⟩
    rw [List.flatMap_append, List.flatMap_cons, List.filter_append, List.filter_append, hnone,
      hnoneAfter, List.nil_append, List.append_nil, h.content level hl, List.filter_filter]
    simp only [Bool.and_self]
  · rw [h.filter_flatMap_of_ne fun level hl => ⟨hl, fun he => hi ⟨level, hl, he⟩⟩]
    refine (List.filter_eq_nil_iff.mpr fun d hd hlevel => hi ?_).symm
    rw [← of_decide_eq_true hlevel]
    exact h.covered d hd

/-- One after the other the levels are the declarations sorted by level. -/
theorem joined (h : Grouping declarations levels) :
    levels.flatMap Level.declarations = Declaration.byLevel declarations :=
  eq_of_ascending h.ascending_joined (Declaration.ascending_byLevel declarations) fun i =>
    (h.filter_joined i).trans (Declaration.filter_byLevel declarations i).symm

/-- The sorted declarations are cut where a declaration is of another level than the one before. -/
theorem cut (h : Grouping declarations levels) :
    (Declaration.byLevel declarations).splitBy (fun a b => a.level = b.level) =
      levels.map Level.declarations := by
  refine List.splitBy_eq_iff.mpr ⟨?_, ?_, ?_, ?_⟩
  · rw [← h.joined, List.flatMap_def]
  · intro hnil
    obtain ⟨level, -, hempty⟩ := List.mem_map.mp hnil
    exact level.nonempty hempty
  · intro own hown
    obtain ⟨level, hl, rfl⟩ := List.mem_map.mp hown
    refine (List.pairwise_of_forall_mem_list fun a ha b hb => ?_).isChain
    simp [h.level_eq hl ha, h.level_eq hl hb]
  · refine (List.pairwise_map.mpr (h.ascending.imp_of_mem fun {x y} hx hy hlt => ?_)).isChain
    refine ⟨x.nonempty, y.nonempty, ?_⟩
    rw [h.level_eq hx (List.getLast_mem x.nonempty), h.level_eq hy (List.head_mem y.nonempty)]
    simpa using hlt.ne

end Grouping

/-- The levels stand in strictly ascending order, each with at least one declaration and with those
of its number alone. They are what one pass collects, and one after the other they are the stable
sort of the declarations by level, cut where the level changes. So no declaration is lost or told
twice, and those of one level keep their order, however the levels are interleaved. -/
theorem Declaration.levels_cut_byLevel (declarations : List Declaration) :
    (levels declarations).map Level.content = ascending (collected declarations)
      ∧ ((levels declarations).Pairwise fun a b => a.index < b.index)
      ∧ (∀ level ∈ levels declarations,
          level.declarations ≠ [] ∧ ∀ d ∈ level.declarations, d.level = level.index)
      ∧ (levels declarations).flatMap Level.declarations = byLevel declarations
      ∧ (levels declarations).map Level.declarations =
          (byLevel declarations).splitBy (fun a b => a.level = b.level)
      ∧ ((levels declarations).flatMap Level.declarations).Perm declarations
      ∧ ∀ i, (((levels declarations).flatMap Level.declarations).filter fun d => d.level = i) =
          declarations.filter fun d => d.level = i := by
  have hgrouping := grouping_levels declarations
  refine ⟨content_levels_eq_ascending declarations, hgrouping.ascending, fun level hl => ?_,
    hgrouping.joined, hgrouping.cut.symm, ?_, hgrouping.filter_joined⟩
  · exact ⟨level.nonempty, fun d hd => hgrouping.level_eq hl hd⟩
  · rw [hgrouping.joined]
    exact List.mergeSort_perm _ _

end PropertyLayers
