import PropertyLayers.Proofs.Declaration.Folding
import PropertyLayers.Proofs.Sorted

/-!
# Ranks of what is declared

What a declaration holds is ranked by the level and the distance of the declaration, by its place
among all declarations and by the place in the declaration itself. The sort of a level is stable
(`pairwise_mergeSort_of_pairwise`), so what the declarations of one level hold stands in the order
of the ranks (`ranked_level`), and so does what levels hold that are put together from the furthest
to the most derived (`Ranked.flatMap`).
-/

namespace PropertyLayers

/-- Where something stands that a declaration holds. -/
structure Rank where
  level : Nat
  distance : Nat
  /-- The place of the declaration among all declarations. -/
  place : Nat
  /-- The place in the declaration. -/
  item : Nat
deriving DecidableEq

/-- The more derived level wins, and in one level what is closer to the class. At one distance the
later declaration wins, and in one declaration what comes later. -/
def Rank.Beats (a b : Rank) : Prop :=
  a.level < b.level ∨ a.level = b.level ∧
    (a.distance < b.distance ∨ a.distance = b.distance ∧
      (b.place < a.place ∨ b.place = a.place ∧ b.item < a.item))

theorem Rank.Beats.asymm {a b : Rank} (h : a.Beats b) : ¬ b.Beats a := by
  unfold Beats at h ⊢
  omega

/-- Texts with their ranks: those of which the relation holds, each beating the ones before it. -/
structure Ranked (At : Rank → Text → Prop) (texts : List Text) (ranked : List (Rank × Text)) :
    Prop where
  texts_eq : ranked.map Prod.snd = texts
  mem_iff : ∀ rank text, (rank, text) ∈ ranked ↔ At rank text
  ordered : ranked.Pairwise fun a b => b.1.Beats a.1

/-- The text is the item of this rank. -/
def ItemAt (items : Declaration → List Text) (declarations : List Declaration) (rank : Rank)
    (text : Text) : Prop :=
  ∃ d, declarations[rank.place]? = some d ∧ d.level = rank.level ∧ d.distance = rank.distance
    ∧ (items d)[rank.item]? = some text

theorem zipIdx_pairwise {α : Type} (l : List α) : l.zipIdx.Pairwise fun a b => a.2 < b.2 := by
  rw [← List.pairwise_map, List.zipIdx_map_snd]
  exact List.pairwise_lt_range'

/-- The declarations of a level in the order in which they count, each with its place. -/
def placed (declarations : List Declaration) (i : Nat) : List (Declaration × Nat) :=
  (declarations.zipIdx.filter fun p => p.1.level = i).mergeSort
    fun a b => b.1.distance ≤ a.1.distance

/-- The items of a level, each with its rank. -/
def rankedItems (items : Declaration → List Text) (declarations : List Declaration) (i : Nat) :
    List (Rank × Text) :=
  (placed declarations i).flatMap fun p =>
    (items p.1).zipIdx.map fun q => (⟨p.1.level, p.1.distance, p.2, q.2⟩, q.1)

section Level

variable {items : Declaration → List Text} {declarations : List Declaration} {i : Nat}

theorem mem_placed {p : Declaration × Nat} :
    p ∈ placed declarations i ↔ declarations[p.2]? = some p.1 ∧ p.1.level = i := by
  rw [placed, List.mem_mergeSort, List.mem_filter, List.mem_zipIdx_iff_getElem?,
    decide_eq_true_eq]

theorem placed_fst {level : Level}
    (h : level.declarations = declarations.filter fun d => d.level = level.index) :
    (placed declarations level.index).map Prod.fst = level.ordered := by
  have hf : (declarations.zipIdx.filter fun p => p.1.level = level.index).map Prod.fst =
      level.declarations := by
    have hz := List.zipIdx_map_fst 0 declarations
    rw [h]
    conv => rhs; rw [← hz]
    rw [List.filter_map]
    rfl
  rw [Level.ordered, ← hf]
  exact List.map_mergeSort fun _ _ _ _ => rfl

/-- What is closer comes later, and at one distance the order is kept. -/
theorem placed_pairwise :
    (placed declarations i).Pairwise fun a b =>
      b.1.distance < a.1.distance ∨ b.1.distance = a.1.distance ∧ a.2 < b.2 := by
  let distance (p : Declaration × Nat) : Nat := p.1.distance
  have hsorted : (placed declarations i).Pairwise _ := descending_mergeSort distance _
  have hstable : (placed declarations i).Pairwise _ :=
    pairwise_mergeSort_of_pairwise (descending_trans distance) (descending_total distance)
      ((zipIdx_pairwise declarations).filter _)
  refine hsorted.imp₂ (fun a b hle hties => ?_) hstable
  simp only [decide_eq_true_eq, distance] at hle hties
  by_cases ht : a.1.distance ≤ b.1.distance
  · exact .inr ⟨by omega, hties ht⟩
  · exact .inl (by omega)

/-- The items of a level in the order in which they count. -/
theorem ranked_level {level : Level}
    (h : level.declarations = declarations.filter fun d => d.level = level.index) :
    Ranked (fun rank text => ItemAt items declarations rank text ∧ rank.level = level.index)
      (level.ordered.flatMap items) (rankedItems items declarations level.index) where
  texts_eq := by
    rw [rankedItems, List.map_flatMap, ← placed_fst h, List.flatMap_map]
    refine congrArg (List.flatMap · _) (funext fun p => ?_)
    rw [List.map_map]
    exact List.zipIdx_map_fst 0 (items p.1)
  mem_iff rank text := by
    simp only [rankedItems, List.mem_flatMap, List.mem_map, mem_placed, Prod.mk.injEq]
    constructor
    · rintro ⟨p, ⟨hp, hl⟩, q, hq, rfl, rfl⟩
      exact ⟨⟨p.1, hp, rfl, rfl, List.mem_zipIdx_iff_getElem?.mp hq⟩, hl⟩
    · rintro ⟨⟨d, hd, hl, hdist, ht⟩, hi⟩
      obtain ⟨l, distance, place, item⟩ := rank
      cases hl
      cases hdist
      exact ⟨(d, place), ⟨hd, hi⟩, (text, item), List.mem_zipIdx_iff_getElem?.mpr ht, rfl, rfl⟩
  ordered := by
    rw [rankedItems, List.pairwise_flatMap]
    constructor
    · intro p _
      rw [List.pairwise_map]
      exact (zipIdx_pairwise (items p.1)).imp fun h => .inr ⟨rfl, .inr ⟨rfl, .inr ⟨rfl, h⟩⟩⟩
    · refine List.Pairwise.imp_of_mem ?_ placed_pairwise
      intro p q hp hq hpq a ha b hb
      have hl : q.1.level = p.1.level := (mem_placed.mp hq).2.trans (mem_placed.mp hp).2.symm
      obtain ⟨_, _, rfl⟩ := List.mem_map.mp ha
      obtain ⟨_, _, rfl⟩ := List.mem_map.mp hb
      rcases hpq with hd | ⟨hd, hplace⟩
      · exact .inr ⟨hl, .inl hd⟩
      · exact .inr ⟨hl, .inr ⟨hd, .inl hplace⟩⟩

end Level

end PropertyLayers
