import PropertyLayers.Proofs.Hierarchy.Composed

/-!
# Orders without duplicates

An item is taken from the orders that are merged only where none of them has it further back, and is
gone from all of them after that. So nothing comes twice in what they are merged to
(`nodup_of_mergeIn`). In a hierarchy that is built from nothing, by defining new classes above
classes that are known, no order has a class twice therefore (`nodup_order_of_built`).
-/

namespace PropertyLayers

namespace Linearization

variable {α : Type} [DecidableEq α] {orders : List (List α)} {order : List α} {x y : α}

theorem next?_eq_some (h : next? orders = some x) :
    (∃ order ∈ orders, order.head? = some x) ∧ ∀ order ∈ orders, x ∉ order.tail := by
  refine ⟨List.mem_filterMap.mp (List.mem_of_find?_eq_some h), fun order ho => ?_⟩
  have hall := List.find?_some h
  simpa using List.all_eq_true.mp hall order ho

/-- What one step of a merge can do: to end with all orders used up, or to take the next item. -/
theorem mergeIn_succ_cases {steps : Nat} {merged : List α}
    (h : mergeIn (steps + 1) orders = some merged) :
    merged = [] ∨ ∃ x rest, next? orders = some x
      ∧ mergeIn steps (orders.map (without x)) = some rest ∧ merged = x :: rest := by
  rw [mergeIn] at h
  split at h
  · cases h
    exact .inl rfl
  · rcases hn : next? orders with _ | x <;> rw [hn] at h
    · cases h
    rw [Option.bind_eq_bind, Option.bind_some] at h
    rcases hr : mergeIn steps (orders.map (without x)) with _ | rest <;> rw [hr] at h
    · cases h
    · cases h
      exact .inr ⟨x, rest, rfl, hr, rfl⟩

theorem mem_of_mem_without (h : y ∈ without x order) : y ∈ order := by
  unfold without at h
  split at h
  · exact List.mem_of_mem_tail h
  · exact h

/-- An item that stands nowhere but at the head is gone without the head. -/
theorem not_mem_without (h : x ∉ order.tail) : x ∉ without x order := by
  unfold without
  split
  · exact h
  · rename_i hhead
    rcases order with _ | ⟨first, rest⟩
    · exact List.not_mem_nil
    · intro hx
      rcases List.mem_cons.mp hx with rfl | hx
      · exact hhead rfl
      · exact h hx

theorem mem_of_mergeIn :
    ∀ {steps : Nat} {orders : List (List α)} {merged : List α},
      mergeIn steps orders = some merged → ∀ y ∈ merged, ∃ order ∈ orders, y ∈ order
  | 0, _, _, h, y, hy => by
    cases h
    exact absurd hy List.not_mem_nil
  | steps + 1, orders, merged, h, y, hy => by
    rcases mergeIn_succ_cases h with rfl | ⟨x, rest, hnext, hrest, rfl⟩
    · exact absurd hy List.not_mem_nil
    rcases List.mem_cons.mp hy with rfl | hy
    · obtain ⟨⟨order, ho, hhead⟩, -⟩ := next?_eq_some hnext
      exact ⟨order, ho, List.mem_of_head? hhead⟩
    · obtain ⟨_, hm, hy⟩ := mem_of_mergeIn hrest y hy
      obtain ⟨order, ho, rfl⟩ := List.mem_map.mp hm
      exact ⟨order, ho, mem_of_mem_without hy⟩

/-- What orders are merged to has nothing twice, whatever they are. -/
theorem nodup_of_mergeIn :
    ∀ {steps : Nat} {orders : List (List α)} {merged : List α},
      mergeIn steps orders = some merged → merged.Nodup
  | 0, _, _, h => by
    cases h
    exact List.nodup_nil
  | steps + 1, orders, merged, h => by
    rcases mergeIn_succ_cases h with rfl | ⟨x, rest, hnext, hrest, rfl⟩
    · exact List.nodup_nil
    refine List.nodup_cons.mpr ⟨fun hx => ?_, nodup_of_mergeIn hrest⟩
    obtain ⟨_, hm, hx⟩ := mem_of_mergeIn hrest x hx
    obtain ⟨order, ho, rfl⟩ := List.mem_map.mp hm
    exact not_mem_without ((next?_eq_some hnext).2 order ho) hx

theorem linearize_eq_some {item : α} {bases : List α} {orderOf : α → List α}
    (h : linearize item bases orderOf = some order) :
    ∃ above, order = item :: above ∧ above.Nodup
      ∧ ∀ y ∈ above, y ∈ bases ∨ ∃ b ∈ bases, y ∈ orderOf b := by
  unfold linearize at h
  split at h
  · obtain ⟨above, hmerge, rfl⟩ := Option.map_eq_some_iff.mp h
    refine ⟨above, rfl, nodup_of_mergeIn hmerge, fun y hy => ?_⟩
    obtain ⟨order, ho, hy⟩ := mem_of_mergeIn hmerge y hy
    rcases List.mem_append.mp ho with ho | ho
    · obtain ⟨b, hb, rfl⟩ := List.mem_map.mp ho
      exact .inr ⟨b, hb, hy⟩
    · rw [List.mem_singleton.mp ho] at hy
      exact .inl hy
  · cases h

end Linearization

namespace Hierarchy

variable {h h' : Hierarchy} {c : TestClass} {bases : List TestClass}

/-- The class has been defined. -/
def Knows (h : Hierarchy) (c : TestClass) : Prop := (h.get? c).isSome

instance (h : Hierarchy) (c : TestClass) : Decidable (h.Knows c) :=
  inferInstanceAs (Decidable ((h.get? c).isSome = true))

/-- A hierarchy that is built from nothing. A class is defined once, above classes that have been
defined before. -/
inductive Built : Hierarchy → Prop
  | empty : Built empty
  | define {h h' : Hierarchy} {c : TestClass} {bases : List TestClass} : Built h → ¬ h.Knows c →
      (∀ b ∈ bases, h.Knows b) → h.define c bases = some h' → Built h'
  | attach {h : Hierarchy} {c : TestClass} {composition : Composition} : Built h →
      Built (h.attach c composition)

/-- A class that is defined leaves every other class as it is. -/
theorem get?_define_of_ne {a : TestClass} (ha : a ≠ c) (hdefine : h.define c bases = some h') :
    h'.get? a = h.get? a := by
  obtain ⟨order, -, rfl⟩ := Option.map_eq_some_iff.mp hdefine
  simp [get?, List.find?_append, ha.symm]

/-- The order of a new class is found from those of its bases. -/
theorem linearize_of_define (hnew : ¬ h.Knows c) (hdefine : h.define c bases = some h') :
    Linearization.linearize c bases h.order = some (h'.order c) := by
  have hnone : h.get? c = none := by simpa [Knows] using hnew
  unfold get? at hnone
  obtain ⟨order, horder, rfl⟩ := Option.map_eq_some_iff.mp hdefine
  rw [horder, Hierarchy.order, get?]
  simp [List.find?_append, hnone]

/-- No class comes twice in an order, and orders of known classes have known classes alone. -/
structure Orderly (h : Hierarchy) : Prop where
  nodup : ∀ c, (h.order c).Nodup
  known : ∀ c, h.Knows c → ∀ a ∈ h.order c, h.Knows a

theorem orderly_empty : Orderly empty where
  nodup c := List.nodup_singleton c
  known c hc := by cases hc

theorem Orderly.attach (horderly : Orderly h) (composition : Composition) :
    Orderly (h.attach c composition) where
  nodup a := by
    rw [order_attach]
    exact horderly.nodup a
  known a ha b hb := by
    rw [Knows, get?_attach, Option.isSome_map] at ha ⊢
    rw [order_attach] at hb
    exact horderly.known a ha b hb

theorem Orderly.define (horderly : Orderly h) (hnew : ¬ h.Knows c)
    (hbases : ∀ b ∈ bases, h.Knows b) (hdefine : h.define c bases = some h') : Orderly h' := by
  have hother : ∀ a, a ≠ c → h'.get? a = h.get? a := fun a ha => get?_define_of_ne ha hdefine
  have hgrows : ∀ a, h.Knows a → h'.Knows a := by
    intro a ha
    rw [Knows, hother a fun hac => hnew (hac ▸ ha)]
    exact ha
  have horder : ∀ a, a ≠ c → h'.order a = h.order a := by
    intro a ha
    rw [order, order, hother a ha]
  obtain ⟨above, hself, hnodup, habove⟩ :=
    Linearization.linearize_eq_some (linearize_of_define hnew hdefine)
  have hknown : ∀ a ∈ above, h.Knows a := by
    intro a ha
    rcases habove a ha with hb | ⟨b, hb, ha⟩
    · exact hbases a hb
    · exact horderly.known b (hbases b hb) a ha
  refine ⟨fun a => ?_, fun a ha b hb => ?_⟩
  · by_cases hac : a = c
    · rw [hac, hself]
      exact List.nodup_cons.mpr ⟨fun hc => hnew (hknown c hc), hnodup⟩
    · rw [horder a hac]
      exact horderly.nodup a
  · by_cases hac : a = c
    · rw [hac, hself] at hb
      rcases List.mem_cons.mp hb with rfl | hb
      · exact hac ▸ ha
      · exact hgrows b (hknown b hb)
    · rw [horder a hac] at hb
      rw [Knows, hother a hac] at ha
      exact hgrows b (horderly.known a ha b hb)

theorem Built.orderly (hbuilt : Built h) : Orderly h := by
  induction hbuilt with
  | empty => exact orderly_empty
  | define _ hnew hbases hdefine ih => exact ih.define hnew hbases hdefine
  | attach _ ih => exact ih.attach _

theorem nodup_order_of_built (hbuilt : Built h) (c : TestClass) : (h.order c).Nodup :=
  hbuilt.orderly.nodup c

/-! ## A diamond -/

def caseNamed (name : Text) : TestClass := ⟨"m", name, [], false⟩

/-- `D` is derived from `B` and from `C`, and both of these are derived from `A`. -/
def diamond : Hierarchy :=
  ⟨[⟨caseNamed "A", [caseNamed "A"], []⟩,
    ⟨caseNamed "B", [caseNamed "B", caseNamed "A"], []⟩,
    ⟨caseNamed "C", [caseNamed "C", caseNamed "A"], []⟩,
    ⟨caseNamed "D", [caseNamed "D", caseNamed "B", caseNamed "C", caseNamed "A"], []⟩]⟩

theorem built_diamond : Built diamond := by
  have hA : Built ⟨diamond.records.take 1⟩ :=
    @Built.define _ _ (caseNamed "A") [] .empty (by decide) (by decide) rfl
  have hB : Built ⟨diamond.records.take 2⟩ :=
    @Built.define _ _ (caseNamed "B") [caseNamed "A"] hA (by decide) (by decide) rfl
  have hC : Built ⟨diamond.records.take 3⟩ :=
    @Built.define _ _ (caseNamed "C") [caseNamed "A"] hB (by decide) (by decide) rfl
  exact @Built.define _ _ (caseNamed "D") [caseNamed "B", caseNamed "C"] hC (by decide) (by decide)
    rfl

end Hierarchy

end PropertyLayers
