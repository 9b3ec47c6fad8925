import Mathlib.Data.List.Basic

/-!
# Lists sorted by a key

Sorting is stable: it turns nothing around that counts as equal (`pairwise_mergeSort_of_pairwise`),
so it leaves the elements of one key as they are (`filter_mergeSort`). A list in the order of a key
is known from its elements at each key (`eq_of_descending`, `eq_of_ascending`).
-/

namespace PropertyLayers

variable {α : Type}

section Stability

variable {le : α → α → Bool} {R : α → α → Prop}

/-- Sorting turns the order around of nothing that counts as equal. -/
theorem pairwise_mergeSort_of_pairwise (trans : ∀ a b c, le a b → le b c → le a c)
    (total : ∀ a b, le a b || le b a) :
    ∀ {l : List α}, l.Pairwise R → (l.mergeSort le).Pairwise fun a b => le b a → R a b
  | [], _ => by simp
  | a :: l, h => by
    obtain ⟨ha, hl⟩ := List.pairwise_cons.mp h
    obtain ⟨upper, lower, hs, hsl, hupper⟩ := List.mergeSort_cons trans total a l
    have ih := pairwise_mergeSort_of_pairwise trans total hl
    have hmem : ∀ b, b ∈ lower → b ∈ l := fun b hb =>
      List.mem_mergeSort.mp (hsl ▸ List.mem_append_right upper hb)
    rw [hsl, List.pairwise_append] at ih
    rw [hs, List.pairwise_append]
    refine ⟨ih.1, List.pairwise_cons.mpr ⟨fun b hb _ => ha b (hmem b hb), ih.2.1⟩, ?_⟩
    intro b hb c hc hle
    rcases List.mem_cons.mp hc with rfl | hc
    · have hn := hupper b hb
      rw [hle] at hn
      cases hn
    · exact ih.2.2 b hb c hc hle

/-- Sorting leaves in place what counts as equal. -/
theorem filter_mergeSort (trans : ∀ a b c, le a b → le b c → le a c)
    (total : ∀ a b, le a b || le b a) {p : α → Bool} (ties : ∀ a b, p a → p b → le a b)
    (l : List α) : (l.mergeSort le).filter p = l.filter p := by
  have hties : (l.filter p).Pairwise fun a b => le a b :=
    List.pairwise_iff_forall_sublist.mpr fun hab =>
      ties _ _ (List.of_mem_filter (hab.subset (by simp)))
        (List.of_mem_filter (hab.subset (by simp)))
  have hsub : (l.filter p).Sublist (l.mergeSort le) :=
    List.sublist_mergeSort trans total hties List.filter_sublist
  have hsub := hsub.filter p
  rw [List.filter_filter] at hsub
  simp only [Bool.and_self] at hsub
  have hlength : (l.filter p).length = ((l.mergeSort le).filter p).length :=
    ((List.mergeSort_perm l le).filter p).length_eq.symm
  exact (hsub.eq_of_length hlength).symm

end Stability

section Key

variable (key : α → Nat)

theorem ascending_trans (a b c : α) (hab : decide (key a ≤ key b)) (hbc : decide (key b ≤ key c)) :
    decide (key a ≤ key c) := by
  simp only [decide_eq_true_eq] at *
  omega

theorem ascending_total (a b : α) : decide (key a ≤ key b) || decide (key b ≤ key a) := by
  simp only [Bool.or_eq_true, decide_eq_true_eq]
  omega

theorem descending_trans (a b c : α) (hab : decide (key b ≤ key a)) (hbc : decide (key c ≤ key b)) :
    decide (key c ≤ key a) :=
  ascending_trans key c b a hbc hab

theorem descending_total (a b : α) : decide (key b ≤ key a) || decide (key a ≤ key b) :=
  ascending_total key b a

theorem ascending_mergeSort (l : List α) :
    (l.mergeSort fun a b => key a ≤ key b).Pairwise fun a b => key a ≤ key b :=
  (List.pairwise_mergeSort (ascending_trans key) (ascending_total key) l).imp of_decide_eq_true

theorem descending_mergeSort (l : List α) :
    (l.mergeSort fun a b => key b ≤ key a).Pairwise fun a b => key b ≤ key a :=
  (List.pairwise_mergeSort (descending_trans key) (descending_total key) l).imp of_decide_eq_true

theorem strictly_ascending_mergeSort {is : List Nat} (h : is.Nodup) :
    is.mergeSort.Pairwise (· < ·) :=
  (ascending_mergeSort id is).imp₂ (fun _ _ => Nat.lt_of_le_of_ne)
    ((List.mergeSort_perm is _).nodup_iff.mpr h)

variable {key}

theorem key_le_of_filter_eq {x y : α} {xs ys : List α} (hys : ∀ b ∈ ys, key b ≤ key y)
    (h : (x :: xs).filter (fun a => key a = key x) = (y :: ys).filter fun a => key a = key x) :
    key x ≤ key y := by
  have hx : x ∈ (y :: ys).filter fun a => key a = key x := by
    rw [← h]
    simp
  rcases List.mem_cons.mp (List.mem_filter.mp hx).1 with rfl | hx
  · exact Nat.le_refl _
  · exact hys x hx

/-- Two lists in descending order are equal where they agree at each key. -/
theorem eq_of_descending :
    ∀ {xs ys : List α}, (xs.Pairwise fun a b => key b ≤ key a) →
      (ys.Pairwise fun a b => key b ≤ key a) →
      (∀ k, xs.filter (fun a => key a = k) = ys.filter fun a => key a = k) → xs = ys
  | [], [], _, _, _ => rfl
  | [], y :: ys, _, _, h => by simpa using h (key y)
  | x :: xs, [], _, _, h => by simpa using h (key x)
  | x :: xs, y :: ys, hx, hy, h => by
    obtain ⟨hxs, hx⟩ := List.pairwise_cons.mp hx
    obtain ⟨hys, hy⟩ := List.pairwise_cons.mp hy
    have hkey : key y = key x :=
      Nat.le_antisymm (key_le_of_filter_eq hxs (h (key y)).symm)
        (key_le_of_filter_eq hys (h (key x)))
    -- The heads have the same key, so they are the first at this key in both lists.
    have hhead := h (key x)
    simp only [List.filter_cons, hkey, decide_true, if_true, List.cons.injEq] at hhead
    have hrest : xs = ys := eq_of_descending hx hy fun k => by
      have hk := h k
      rw [hhead.1, List.filter_cons, List.filter_cons] at hk
      split at hk
      · exact (List.cons.inj hk).2
      · exact hk
    rw [hhead.1, hrest]

theorem eq_of_ascending {xs ys : List α} (hx : xs.Pairwise fun a b => key a ≤ key b)
    (hy : ys.Pairwise fun a b => key a ≤ key b)
    (h : ∀ k, xs.filter (fun a => key a = k) = ys.filter fun a => key a = k) : xs = ys :=
  List.reverse_injective <| eq_of_descending (List.pairwise_reverse.mpr hx)
    (List.pairwise_reverse.mpr hy) fun k => by rw [List.filter_reverse, List.filter_reverse, h k]

end Key

end PropertyLayers
