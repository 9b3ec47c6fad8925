import PropertyLayers.Declaration.Record
import PropertyLayers.Hierarchy.Basic
import PropertyLayers.Proofs.Declaration.Agreement
import PropertyLayers.Proofs.Record.Accepted

/-!
# Compositions on a class

A composition is a tree, and what it gives to a class are its leaves from left to right, each at the
distance that its depth in the tree is (`attachments_eq_leaves`). Compositions that are written above
a class give it their leaves one after the other, although the lowest of them is attached first
(`get?_attachAll`). So the level of the class takes the leaves by descending depth, and those of one
depth as they are written (`composed_attachments`).
-/

namespace PropertyLayers

/-- The attachment inside so many compositions more. -/
def Attachment.deepened (depth : Nat) (a : Attachment) : Attachment :=
  { a with distance := a.distance + depth }

/-- What some arguments attach without a composition. -/
def Attachment.IsDirect (a : Attachment) : Prop :=
  ∃ arguments, Attachment.ofArguments arguments = .ok a

/-! ## Arguments -/

theorem keys_listArgument {arguments : Table} {name : Text} {argument : List (Text × Value)}
    (h : listArgument arguments name = .ok argument) : ∀ key ∈ Keyed.keys argument, key = name := by
  unfold listArgument at h
  split at h
  · cases h
    simp
  · next value _ =>
    rcases hi : itemsOf value with fault | items <;> rw [hi] at h
    · cases h
    · cases h
      simp

/-- The arguments are made a record of, which says nothing of the distance. -/
theorem exists_record_of_ofArguments {a : Attachment} {arguments : Table}
    (h : Attachment.ofArguments arguments = .ok a) :
    ∃ fields : Table, Text.ofString "distance" ∉ Keyed.keys fields
      ∧ Attachment.check (.table fields) = .ok a := by
  unfold Attachment.ofArguments at h
  split at h
  · cases h
  dsimp only at h
  split at h
  · cases h
  rcases hl : listArgument arguments "locations" with fault | locations <;> rw [hl] at h
  · cases h
  rcases hp : listArgument arguments "properties" with fault | properties <;> rw [hp] at h
  · cases h
  refine ⟨locations ++ properties ++ arguments.filter fun flag =>
    flag.1 = Text.ofString "inherit_locations" || flag.1 = Text.ofString "inherit_properties",
    fun hd => ?_, ?_⟩
  · rw [Keyed.keys, List.map_append, List.map_append, List.mem_append, List.mem_append] at hd
    rcases hd with (hd | hd) | hd
    · exact absurd (keys_listArgument hl _ hd) (by decide)
    · exact absurd (keys_listArgument hp _ hd) (by decide)
    · obtain ⟨⟨name, value⟩, hflag, rfl⟩ := List.mem_map.mp hd
      cases (List.mem_filter.mp hflag).2
  · change (Attachment.check _).toExcept.mapError AttachmentFault.invalid = .ok a at h
    rcases hc : Attachment.check _ with attachment | found <;> rw [hc] at h
    · cases h
      rfl
    · cases h

theorem distance_of_ofArguments {a : Attachment} {arguments : Table}
    (h : Attachment.ofArguments arguments = .ok a) : a.distance = 0 := by
  obtain ⟨fields, hdistance, hcheck⟩ := exists_record_of_ofArguments h
  obtain ⟨_, hfields, hread⟩ := Check.record_eq_ok hcheck
  cases hfields
  rw [Attachment.ofFields, Check.field_of_not_mem hdistance] at hread
  obtain ⟨_, distance, hflags, hzero, rfl⟩ := Checked.seq_eq_ok_iff.mp hread
  obtain ⟨_, _, hflag, -, rfl⟩ := Checked.seq_eq_ok_iff.mp hflags
  obtain ⟨_, _, hlists, -, rfl⟩ := Checked.seq_eq_ok_iff.mp hflag
  obtain ⟨_, _, hlist, -, rfl⟩ := Checked.seq_eq_ok_iff.mp hlists
  obtain ⟨_, -, rfl⟩ := Checked.map_eq_ok_iff.mp hlist
  cases hzero
  rfl

/-! ## Trees -/

namespace Composition

mutual

/-- The leaves from left to right, each with the compositions around it, which are so many for the
whole tree. -/
def leavesAt (depth : Nat) : Composition → List (Attachment × Nat)
  | .single attachment => [(attachment, depth)]
  | .compose parts => leavesOf (depth + 1) parts

def leavesOf (depth : Nat) : List Composition → List (Attachment × Nat)
  | [] => []
  | part :: parts => leavesAt depth part ++ leavesOf depth parts

end

def leaves (composition : Composition) : List (Attachment × Nat) := composition.leavesAt 0

end Composition

/-- The leaf as it is given to a class, its distance being its depth. -/
def Attachment.ofLeaf (leaf : Attachment × Nat) : Attachment := { leaf.1 with distance := leaf.2 }

namespace Composition

mutual

theorem deepened_attachments (depth : Nat) :
    ∀ composition : Composition, composition.attachments.map (Attachment.deepened depth) =
      (composition.leavesAt depth).map fun leaf => leaf.1.deepened leaf.2
  | .single attachment => by simp [attachments, leavesAt]
  | .compose parts => by
    have ih := deepened_attachmentsOf (depth + 1) parts
    rw [attachments, leavesAt, List.map_map, ← ih]
    refine List.map_congr_left fun attachment _ => ?_
    simp [Attachment.deepened, Attachment.nested, Nat.add_comm, Nat.add_left_comm]

theorem deepened_attachmentsOf (depth : Nat) :
    ∀ parts : List Composition, (attachmentsOf parts).map (Attachment.deepened depth) =
      (leavesOf depth parts).map fun leaf => leaf.1.deepened leaf.2
  | [] => by simp [attachmentsOf, leavesOf]
  | part :: parts => by
    rw [attachmentsOf, leavesOf, List.map_append, List.map_append, deepened_attachments depth part,
      deepened_attachmentsOf depth parts]

end

def HasDirectLeaves (composition : Composition) : Prop :=
  ∀ leaf ∈ composition.leaves, leaf.1.IsDirect

/-- What a composition gives to a class are its leaves, each at its depth. -/
theorem attachments_eq_leaves {composition : Composition} (h : composition.HasDirectLeaves) :
    composition.attachments = composition.leaves.map Attachment.ofLeaf := by
  have hdeepened := deepened_attachments 0 composition
  have hid : Attachment.deepened 0 = id := rfl
  rw [hid, List.map_id] at hdeepened
  rw [hdeepened, ← leaves]
  refine List.map_congr_left fun leaf hleaf => ?_
  obtain ⟨arguments, harguments⟩ := h leaf hleaf
  rw [Attachment.deepened, distance_of_ofArguments harguments, Nat.zero_add]
  rfl

end Composition

/-! ## Classes -/

namespace Hierarchy

variable {h h' : Hierarchy} {c : TestClass}

theorem get?_attach (composition : Composition) (a : TestClass) :
    (h.attach c composition).get? a = (h.get? a).map fun r =>
      if r.identity = c then { r with attachments := composition.attachments ++ r.attachments }
      else r := by
  rw [get?, get?, attach, List.find?_map]
  congr 2
  funext r
  simp only [Function.comp_apply]
  split <;> rfl

theorem order_attach (composition : Composition) (a : TestClass) :
    (h.attach c composition).order a = h.order a := by
  rw [order, order, get?_attach, Option.map_map]
  congr 2
  funext r
  simp only [Function.comp_apply]
  split <;> rfl

theorem order_attachAll (a : TestClass) :
    ∀ stack : List Composition, (h.attachAll c stack).order a = h.order a
  | [] => rfl
  | composition :: stack => by
    rw [attachAll, List.foldr_cons, ← attachAll, order_attach, order_attachAll a stack]

theorem identity_of_get? {r : ClassRecord} (hr : h.get? c = some r) : r.identity = c := by
  simpa using List.find?_some hr

theorem get?_attach_self {r : ClassRecord} (hr : h.get? c = some r) (composition : Composition) :
    (h.attach c composition).get? c =
      some { r with attachments := composition.attachments ++ r.attachments } := by
  rw [get?_attach, hr, Option.map_some, if_pos (identity_of_get? hr)]

/-- Compositions that are written from top to bottom come before what the class has, in the order
in which they are written. -/
theorem get?_attachAll {r : ClassRecord} (hr : h.get? c = some r) :
    ∀ stack : List Composition, (h.attachAll c stack).get? c =
      some { r with attachments := stack.flatMap Composition.attachments ++ r.attachments }
  | [] => hr
  | composition :: stack => by
    have ih := get?_attachAll hr stack
    rw [attachAll, List.foldr_cons, ← attachAll, get?_attach_self ih, List.flatMap_cons,
      List.append_assoc]

/-- A new class has nothing attached and comes first in its own order. -/
theorem get?_define {bases : List TestClass} (hnew : h.get? c = none)
    (hdefine : h.define c bases = some h') :
    ∃ ancestors, h'.get? c = some ⟨c, c :: ancestors, []⟩ := by
  unfold get? at hnew
  obtain ⟨order, horder, rfl⟩ := Option.map_eq_some_iff.mp hdefine
  obtain ⟨ancestors, rfl⟩ : ∃ ancestors, order = c :: ancestors := by
    unfold Linearization.linearize at horder
    split at horder
    · obtain ⟨ancestors, -, rfl⟩ := Option.map_eq_some_iff.mp horder
      exact ⟨ancestors, rfl⟩
    · cases horder
  exact ⟨ancestors, by simp [get?, List.find?_append, hnew]⟩

theorem atLevel_declarationsAt (h : Hierarchy) (c : TestClass) (level i : Nat) :
    Declaration.atLevel (h.declarationsAt c level) i =
      if level = i then h.declarationsAt c level else [] := by
  split
  · rename_i hi
    refine List.filter_eq_self.mpr fun d hd => ?_
    obtain ⟨_, -, rfl⟩ := List.mem_map.mp hd
    simpa using hi
  · rename_i hi
    refine List.filter_eq_nil_iff.mpr fun d hd => ?_
    obtain ⟨_, -, rfl⟩ := List.mem_map.mp hd
    simpa using hi

theorem atLevel_zipIdx (h : Hierarchy) (i : Nat) :
    ∀ (order : List TestClass) (n : Nat),
      Declaration.atLevel ((order.zipIdx n).flatMap fun (a, level) => h.declarationsAt a level) i =
        if n ≤ i then ((order[i - n]?).map fun a => h.declarationsAt a i).getD [] else []
  | [], n => by simp [Declaration.atLevel]
  | a :: order, n => by
    have ih := atLevel_zipIdx h i order (n + 1)
    have hhead := atLevel_declarationsAt h a n i
    rw [Declaration.atLevel] at ih hhead ⊢
    rw [List.zipIdx_cons, List.flatMap_cons, List.filter_append, ih, hhead]
    rcases Nat.lt_trichotomy n i with hlt | rfl | hgt
    · have hplace : i - n = (i - (n + 1)) + 1 := by omega
      rw [if_neg (by omega), if_pos (by omega), if_pos (by omega), hplace]
      rfl
    · simp
    · rw [if_neg (by omega), if_neg (by omega), if_neg (by omega)]
      rfl

/-- At the level of its place in an order a class has its own declarations alone. -/
theorem atLevel_declarations {a : TestClass} {i : Nat} (hplace : (h.order a)[i]? = some c) :
    Declaration.atLevel (h.declarations a) i = h.declarationsAt c i := by
  rw [declarations, atLevel_zipIdx, if_pos (Nat.zero_le i), Nat.sub_zero, hplace]
  rfl

/-- What is recorded of a new class is the leaves of the compositions above it, as they are written
from top to bottom. Its order is that of its definition. -/
theorem recorded_of_attachAll {bases : List TestClass} {stack : List Composition}
    (hnew : h.get? c = none) (hdefine : h.define c bases = some h')
    (hdirect : ∀ composition ∈ stack, composition.HasDirectLeaves) :
    (h'.attachAll c stack).attachments c = (stack.flatMap Composition.leaves).map Attachment.ofLeaf
      ∧ ((h'.attachAll c stack).order c).head? = some c := by
  obtain ⟨ancestors, hrecord⟩ := get?_define hnew hdefine
  refine ⟨?_, ?_⟩
  · have hleaves : stack.flatMap Composition.attachments =
        stack.flatMap fun composition => composition.leaves.map Attachment.ofLeaf :=
      List.flatMap_congr fun composition hm => Composition.attachments_eq_leaves (hdirect _ hm)
    rw [attachments, get?_attachAll hrecord, Option.map_some, Option.getD_some, List.append_nil,
      hleaves, List.map_flatMap]
  · rw [order_attachAll, order, hrecord]
    rfl

end Hierarchy

/-! ## Levels -/

/-- A leaf as a declaration of a class at a level. -/
def declaredAt (c : TestClass) (level : Nat) (leaf : Attachment × Nat) : Declaration :=
  { Attachment.ofLeaf leaf with declaring := c, level }

/-- A level that takes the leaves by descending depth, those of one depth in their order, and comes
to what they hold. -/
structure Level.Takes (c : TestClass) (leaves : List (Attachment × Nat)) (level : Level) :
    Prop where
  declarations : level.declarations = leaves.map (declaredAt c level.index)
  ordered : ByDistance (leaves.map (declaredAt c level.index)) level.ordered
  properties : ∀ {loader suffix known folded}, level.fold loader suffix known = .ok folded →
    folded.properties = level.ordered.flatMap fun d => d.properties
  locations : ∀ {loader suffix known folded}, level.fold loader suffix known = .ok folded →
    ¬ level.Blank → folded.locations = level.ordered.flatMap fun d => d.locations

theorem Level.takes_of_declarations {c : TestClass} {leaves : List (Attachment × Nat)}
    {level : Level} (h : level.declarations = leaves.map (declaredAt c level.index)) :
    level.Takes c leaves where
  declarations := h
  ordered := h ▸ level.byDistance_ordered
  properties hfold := (foldsTo_of_fold hfold).properties
  locations hfold hblank := by
    rw [(foldsTo_of_fold hfold).locations, if_neg fun hempty => hblank ?_]
    exact isBlank_iff_blank.mp (isBlank_iff.mpr hempty)

namespace Hierarchy

variable {h h' : Hierarchy} {c : TestClass}

/-- Wherever a class stands in an order, its level takes what it has been given. -/
theorem levels_take {a : TestClass} {i : Nat} {leaves : List (Attachment × Nat)}
    (hattachments : h.attachments c = leaves.map Attachment.ofLeaf)
    (hplace : (h.order a)[i]? = some c) :
    (leaves ≠ [] → ∃ level ∈ Declaration.levels (h.declarations a), level.index = i)
      ∧ ∀ level ∈ Declaration.levels (h.declarations a), level.index = i →
        level.Takes c leaves := by
  have hdeclared : Declaration.atLevel (h.declarations a) i = leaves.map (declaredAt c i) := by
    rw [atLevel_declarations hplace, declarationsAt, hattachments, List.map_map]
    rfl
  have hgrouping := Declaration.grouping_levels (h.declarations a)
  refine ⟨fun hne => ?_, fun level hlevel hindex => ?_⟩
  · obtain ⟨leaf, hleaf⟩ := List.exists_mem_of_ne_nil _ hne
    have hmem : declaredAt c i leaf ∈ Declaration.atLevel (h.declarations a) i :=
      hdeclared ▸ List.mem_map_of_mem hleaf
    exact hgrouping.covered _ (List.mem_filter.mp hmem).1
  · subst hindex
    exact Level.takes_of_declarations ((hgrouping.content level hlevel).trans hdeclared)

/-- A composition gives its leaves to a class from left to right, each as it is but for its
distance, which is its depth. Compositions that are written above a new class are recorded one after
the other as they are written. So the level of the class takes their leaves by descending depth, and
those of one depth as they are written, wherever the class stands in the order of a class. -/
theorem composed_attachments :
    (∀ composition : Composition, composition.HasDirectLeaves →
        composition.attachments = composition.leaves.map Attachment.ofLeaf)
      ∧ ∀ {h h' : Hierarchy} {c : TestClass} {bases : List TestClass} {stack : List Composition},
        h.get? c = none → h.define c bases = some h' →
        (∀ composition ∈ stack, composition.HasDirectLeaves) →
        let given := h'.attachAll c stack
        let leaves := stack.flatMap Composition.leaves
        given.attachments c = leaves.map Attachment.ofLeaf
          ∧ (given.order c).head? = some c
          ∧ ∀ (a : TestClass) (i : Nat), (given.order a)[i]? = some c →
            (leaves ≠ [] → ∃ level ∈ Declaration.levels (given.declarations a), level.index = i)
              ∧ ∀ level ∈ Declaration.levels (given.declarations a), level.index = i →
                level.Takes c leaves := by
  refine ⟨fun _ => Composition.attachments_eq_leaves, ?_⟩
  intro h h' c bases stack hnew hdefine hdirect given leaves
  obtain ⟨hattachments, horder⟩ := recorded_of_attachAll hnew hdefine hdirect
  exact ⟨hattachments, horder, fun a i hplace => levels_take hattachments hplace⟩

/-- One property, `distance` away. -/
def oneProperty (entry : Text) (distance : Nat) : Attachment := ⟨[], [entry], true, true, distance⟩

def innerAndOuter : Composition :=
  .compose [.compose [.single (oneProperty "inner=1" 0)], .compose [],
    .single (oneProperty "outer=1" 0)]

def composedCase : TestClass := ⟨"pkg.m", "C", [], false⟩

theorem composed_attachments_nested :
    let given := Hierarchy.attachAll ⟨[⟨composedCase, [composedCase], []⟩]⟩ composedCase
      [innerAndOuter, .single (oneProperty "direct=1" 0)]
    innerAndOuter.attachments = [oneProperty "inner=1" 2, oneProperty "outer=1" 1]
      ∧ given.attachments composedCase =
        [oneProperty "inner=1" 2, oneProperty "outer=1" 1, oneProperty "direct=1" 0] := by
  have hdirect (entry : Text) : (oneProperty entry 0).IsDirect :=
    ⟨[("properties", .list [.text entry])], rfl⟩
  have htree : innerAndOuter.leaves =
      [(oneProperty "inner=1" 0, 2), (oneProperty "outer=1" 0, 1)] := by
    simp [innerAndOuter, Composition.leaves, Composition.leavesAt, Composition.leavesOf]
  have hsingle (entry : Text) : (Composition.single (oneProperty entry 0)).leaves =
      [(oneProperty entry 0, 0)] := by
    simp [Composition.leaves, Composition.leavesAt]
  have hdirectTree : innerAndOuter.HasDirectLeaves := by
    intro leaf hleaf
    rw [htree] at hleaf
    rcases List.mem_cons.mp hleaf with rfl | hleaf
    · exact hdirect _
    · rw [List.mem_singleton.mp hleaf]
      exact hdirect _
  have hdirectSingle : (Composition.single (oneProperty "direct=1" 0)).HasDirectLeaves := by
    intro leaf hleaf
    rw [hsingle, List.mem_singleton] at hleaf
    rw [hleaf]
    exact hdirect _
  have hstack : ∀ composition ∈ [innerAndOuter, .single (oneProperty "direct=1" 0)],
      composition.HasDirectLeaves :=
    List.forall_mem_cons.mpr ⟨hdirectTree, List.forall_mem_singleton.mpr hdirectSingle⟩
  obtain ⟨hcompositions, hclasses⟩ := composed_attachments
  obtain ⟨hgiven, -⟩ := @hclasses Hierarchy.empty _ composedCase [] _ rfl rfl hstack
  refine ⟨(hcompositions innerAndOuter hdirectTree).trans ?_, hgiven.trans ?_⟩
  · rw [htree]
    rfl
  · rw [List.flatMap_cons, List.flatMap_singleton, htree, hsingle]
    rfl

end Hierarchy

end PropertyLayers
