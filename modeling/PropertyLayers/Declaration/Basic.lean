import PropertyLayers.Declaration.Attachment
import PropertyLayers.TestClass

/-!
# Declarations and levels

A declaration is an attachment of a class at its level in a hierarchy, where level 0 is the most
derived class. Declarations are put together by level, and keep their order in each
(`levels`).
-/

namespace PropertyLayers

structure Declaration extends Attachment where
  declaring : TestClass
  level : Nat
deriving DecidableEq

/-- Declarations of one level, at least one. -/
structure Level where
  index : Nat
  declarations : List Declaration
  nonempty : declarations ≠ []
deriving DecidableEq

namespace Declaration

/-- The numbers of the levels, in ascending order. -/
def levelIndexes (declarations : List Declaration) : List Nat :=
  (declarations.map level).eraseDups.mergeSort

theorem mem_levelIndexes {i : Nat} {declarations : List Declaration} :
    i ∈ levelIndexes declarations ↔ ∃ d ∈ declarations, d.level = i := by
  simp [levelIndexes, List.mem_mergeSort, List.mem_eraseDups]

def atLevel (declarations : List Declaration) (i : Nat) : List Declaration :=
  declarations.filter fun d => d.level = i

theorem atLevel_ne_nil {i : Nat} {declarations : List Declaration}
    (h : i ∈ levelIndexes declarations) : atLevel declarations i ≠ [] := by
  obtain ⟨d, hd, hi⟩ := mem_levelIndexes.mp h
  exact List.ne_nil_of_mem (List.mem_filter.mpr ⟨hd, by simpa using hi⟩)

/-- The levels of declarations, the most derived first. -/
def levels (declarations : List Declaration) : List Level :=
  (levelIndexes declarations).attach.map fun i =>
    ⟨i.1, atLevel declarations i.1, atLevel_ne_nil i.2⟩

end Declaration

end PropertyLayers
