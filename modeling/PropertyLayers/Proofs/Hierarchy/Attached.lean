import PropertyLayers.Proofs.Hierarchy.Linearized

/-!
# Compositions on many classes

Compositions are given to the classes of a hierarchy one after the other, in whatever order. What a
class has been given then is told by those that were meant for it, the last one first
(`get?_attachEach`), and nothing is taken over from its bases or its subclasses. So its attachments
do not change with what is given to other classes in between, and its declarations change with
what is given to the classes of its order alone (`attachEach_apart`).
-/

namespace PropertyLayers

/-- What is given to the class among all that is given, in the order in which it comes. -/
def givenTo (c : TestClass) (given : List (TestClass × Composition)) : List Composition :=
  (given.filter fun g => g.1 = c).map Prod.snd

theorem givenTo_cons_self (c : TestClass) (composition : Composition)
    (rest : List (TestClass × Composition)) :
    givenTo c ((c, composition) :: rest) = composition :: givenTo c rest := by
  rw [givenTo, List.filter_cons_of_pos (by simp), List.map_cons]
  rfl

theorem givenTo_cons_of_ne {a c : TestClass} (h : a ≠ c) (composition : Composition)
    (rest : List (TestClass × Composition)) :
    givenTo c ((a, composition) :: rest) = givenTo c rest := by
  rw [givenTo, List.filter_cons_of_neg (by simpa using h)]
  rfl

namespace Hierarchy

variable {h h' : Hierarchy} {c : TestClass} {given other : List (TestClass × Composition)}

/-- Gives compositions to classes, one after the other. -/
def attachEach (h : Hierarchy) (given : List (TestClass × Composition)) : Hierarchy :=
  given.foldl (fun h g => h.attach g.1 g.2) h

theorem attachEach_cons (h : Hierarchy) (a : TestClass) (composition : Composition)
    (rest : List (TestClass × Composition)) :
    h.attachEach ((a, composition) :: rest) = (h.attach a composition).attachEach rest := rfl

/-- What was meant for the class comes before what it has, the last of it first. -/
theorem get?_attachEach (c : TestClass) :
    ∀ (given : List (TestClass × Composition)) (h : Hierarchy),
      (h.attachEach given).get? c = (h.get? c).map fun r =>
        { r with attachments :=
            (givenTo c given).reverse.flatMap Composition.attachments ++ r.attachments }
  | [], h => by simp [attachEach, givenTo]
  | (a, composition) :: rest, h => by
    rw [attachEach_cons, get?_attachEach c rest]
    rcases hr : h.get? c with _ | r
    · rw [get?_attach, hr]
      rfl
    have hidentity := identity_of_get? hr
    by_cases ha : a = c
    · subst ha
      rw [get?_attach_self hr, givenTo_cons_self, List.reverse_cons, List.flatMap_append,
        List.flatMap_singleton]
      simp
    · rw [get?_attach, hr, Option.map_some, if_neg (hidentity ▸ Ne.symm ha),
        givenTo_cons_of_ne ha]

theorem order_attachEach (h : Hierarchy) (given : List (TestClass × Composition)) (c : TestClass) :
    (h.attachEach given).order c = h.order c := by
  rw [order, order, get?_attachEach, Option.map_map]
  rfl

theorem attachments_attachEach (h : Hierarchy) (given : List (TestClass × Composition))
    (c : TestClass) :
    (h.attachEach given).attachments c = ((h.get? c).map fun r =>
      (givenTo c given).reverse.flatMap Composition.attachments ++ r.attachments).getD [] := by
  rw [attachments, get?_attachEach, Option.map_map]
  rfl

theorem attachments_attachEach_congr (hc : givenTo c given = givenTo c other) :
    (h.attachEach given).attachments c = (h.attachEach other).attachments c := by
  rw [attachments_attachEach, attachments_attachEach, hc]

/-- The declarations of a class are read off the attachments of the classes in its order. -/
theorem declarations_attachEach_congr
    (hancestors : ∀ a ∈ h.order c, givenTo a given = givenTo a other) :
    (h.attachEach given).declarations c = (h.attachEach other).declarations c := by
  rw [declarations, declarations, order_attachEach, order_attachEach]
  refine List.flatMap_congr fun place hplace => ?_
  have hmem : place.1 ∈ h.order c := List.fst_mem_of_mem_zipIdx hplace
  simp only [declarationsAt, attachments_attachEach_congr (hancestors place.1 hmem)]

/-- What a class has been given comes of what was meant for it. So two sequences in which the same
is meant for the class, in the same order, give it the same attachments, and two in which this holds
for every class of its order give it the same declarations, however they go on between these. A
class that is defined above others takes nothing over from them and leaves them what they have. -/
theorem attachEach_apart (h : Hierarchy) :
    (∀ c record given, h.get? c = some record →
        (h.attachEach given).attachments c =
          (givenTo c given).reverse.flatMap Composition.attachments ++ record.attachments)
      ∧ (∀ c given other, givenTo c given = givenTo c other →
          (h.attachEach given).attachments c = (h.attachEach other).attachments c)
      ∧ (∀ c given other, (∀ a ∈ h.order c, givenTo a given = givenTo a other) →
          (h.attachEach given).declarations c = (h.attachEach other).declarations c)
      ∧ ∀ c bases h', h.get? c = none → h.define c bases = some h' →
          h'.attachments c = [] ∧ ∀ a, a ≠ c → h'.attachments a = h.attachments a := by
  refine ⟨fun c record given hr => ?_, fun c given other => attachments_attachEach_congr,
    fun c given other => declarations_attachEach_congr, fun c bases h' hnew hdefine => ⟨?_, ?_⟩⟩
  · rw [attachments_attachEach, hr]
    rfl
  · obtain ⟨ancestors, hrecord⟩ := get?_define hnew hdefine
    rw [attachments, hrecord]
    rfl
  · intro a ha
    rw [attachments, attachments, get?_define_of_ne ha hdefine]

/-- The furthest base is given something before and after one of the classes derived from it. -/
theorem attachEach_apart_diamond :
    let base := caseNamed "A"
    let derived := caseNamed "C"
    let first := oneProperty "first=1" 0
    let second := oneProperty "second=1" 0
    let own := oneProperty "own=1" 0
    let given := diamond.attachEach [(base, .single first), (derived, .single own),
      (base, .single second)]
    let other := diamond.attachEach [(derived, .single own), (base, .single first),
      (base, .single second)]
    given.attachments base = [second, first]
      ∧ given.attachments (caseNamed "D") = []
      ∧ given.declarations (caseNamed "D") = other.declarations (caseNamed "D")
      ∧ ∃ h', given.define (caseNamed "E") [derived] = some h'
        ∧ h'.attachments (caseNamed "E") = [] ∧ h'.attachments derived = [own] := by
  intro base derived first second own given other
  obtain ⟨hown, hsame, hdeclared, -⟩ := attachEach_apart diamond
  obtain ⟨-, -, -, hdefined⟩ := attachEach_apart given
  refine ⟨(hown base _ _ rfl).trans rfl, (hsame (caseNamed "D") _ [] rfl).trans rfl, ?_, ?_⟩
  · refine hdeclared (caseNamed "D") _ _ fun a ha => ?_
    have horder : a ∈ [caseNamed "D", caseNamed "B", derived, base] := ha
    simp only [List.mem_cons, List.not_mem_nil, or_false] at horder
    rcases horder with rfl | rfl | rfl | rfl <;> rfl
  · obtain ⟨hnew, hothers⟩ := hdefined (caseNamed "E") [derived] _ rfl rfl
    exact ⟨_, rfl, hnew, (hothers derived (by decide)).trans rfl⟩

end Hierarchy

end PropertyLayers
