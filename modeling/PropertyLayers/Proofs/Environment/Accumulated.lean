import PropertyLayers.Proofs.Environment.Held

/-!
# Entries that are applied one list after the other

Lists of entries may be applied one after the other, with failures and with operations on other
sources in between. The inlined source holds in the end what all lists that were taken in come to
when they are read at once (`Gathers`, which each operation carries on). It is there once a list
with an entry has been taken in, and stays where it stands when entries are applied after that
(`inlined_accumulates`).
-/

namespace PropertyLayers

namespace Environment

variable {env : Environment} {lists : List (List Text)}

/-- The entries that an operation takes in, if it is to apply entries and does not fail. -/
def taken? (env : Environment) : Operation → Option (List Text)
  | .applyInlined entries =>
    match (env.applyInlined entries).failure? with
    | none => some entries
    | some _ => none
  | _ => none

/-- The lists of entries that operations take in, one after the other. -/
def takenLists (env : Environment) : List Operation → List (List Text)
  | [] => []
  | operation :: rest => (env.taken? operation).toList ++ (env.perform operation).takenLists rest

/-- No operation is about the inlined source but to apply entries. -/
def OnlyEntries (env : Environment) : List Operation → Prop
  | [] => True
  | operation :: rest =>
    (inlinedName ∈ env.named operation → ∃ entries, operation = .applyInlined entries)
      ∧ (env.perform operation).OnlyEntries rest

/-- The inlined source holds what the lists come to when they are read at once, and is there if they
have an entry. -/
def Gathers (env : Environment) (lists : List (List Text)) : Prop :=
  ∃ m, Properties.readEntries lists.flatten = .ok m
    ∧ env.get? inlinedName = if lists.flatten = [] then none else some ⟨inlinedName, m⟩

theorem gathers_nil (h : env.get? inlinedName = none) : env.Gathers [] := ⟨∅, rfl, h⟩

/-! ## One operation -/

theorem applyInlined_nil (env : Environment) : env.applyInlined [] = ⟨env, [], none⟩ := rfl

theorem Gathers.overlayInlined (h : env.Gathers lists) {entries : List Text}
    {properties : PropertyMap} (hne : entries ≠ [])
    (hread : Properties.readEntries entries = .ok properties) :
    (env.overlayInlined properties).Gathers (lists ++ [entries]) := by
  obtain ⟨m, hlists, hheld⟩ := h
  have hflatten : (lists ++ [entries]).flatten = lists.flatten ++ entries := by simp
  have hnonempty : lists.flatten ++ entries ≠ [] := List.append_ne_nil_of_right_ne_nil _ hne
  simp only [Gathers, hflatten, if_neg hnonempty]
  by_cases hempty : lists.flatten = []
  · rw [if_pos hempty] at hheld
    refine ⟨properties, by rw [hempty, List.nil_append, hread], ?_⟩
    rw [overlayInlined_of_none hheld, get?_addHighest, if_pos rfl]
  · rw [if_neg hempty] at hheld
    refine ⟨m.update properties, ?_, ?_⟩
    · rw [Properties.readEntries_append, hlists, hread]
      rfl
    · rw [overlayInlined_of_some hheld, get?_modify, if_pos rfl, hheld]
      rfl

theorem Gathers.applyInlined (h : env.Gathers lists) (entries : List Text) :
    (env.perform (.applyInlined entries)).Gathers
      (lists ++ (env.taken? (.applyInlined entries)).toList) := by
  rw [perform, taken?]
  by_cases hne : entries = []
  · have hflatten : (lists ++ [[]]).flatten = lists.flatten := by simp
    rw [hne, applyInlined_nil, Option.toList_some, Gathers, hflatten]
    exact h
  rcases hread : Properties.readEntries entries with malformed | properties
  · rw [applyInlined_of_readEntries_error hread, Option.toList_none, List.append_nil]
    exact h
  · rw [applyInlined_of_readEntries hne hread]
    exact h.overlayInlined hne hread

theorem Gathers.perform (h : env.Gathers lists) {operation : Operation}
    (honly : inlinedName ∈ env.named operation → ∃ entries, operation = .applyInlined entries) :
    (env.perform operation).Gathers (lists ++ (env.taken? operation).toList) := by
  by_cases happly : ∃ entries, operation = .applyInlined entries
  · obtain ⟨entries, rfl⟩ := happly
    exact h.applyInlined entries
  · have hnothing : env.taken? operation = none := by
      cases operation with
      | applyInlined entries => exact absurd ⟨entries, rfl⟩ happly
      | _ => rfl
    rw [hnothing, Option.toList_none, List.append_nil, Gathers,
      get?_perform_of_not_mem_named (mt honly happly)]
    exact h

/-- Applying entries leaves the inlined source where it stands, and the sources around it as they
are. -/
theorem sources_applyInlined_of_get? {s : Source} (h : env.get? inlinedName = some s)
    (entries : List Text) :
    ∃ upper lower properties, env.sources = upper ++ s :: lower
      ∧ (env.applyInlined entries).environment.sources =
        upper ++ ⟨inlinedName, properties⟩ :: lower := by
  obtain ⟨name, held⟩ := s
  obtain ⟨lower, hsources⟩ := sources_of_get? h
  obtain rfl : name = inlinedName := (mem_of_get? h).2
  by_cases hne : entries = []
  · rw [hne, applyInlined_nil]
    exact ⟨_, lower, held, hsources, hsources⟩
  rcases hread : Properties.readEntries entries with malformed | properties
  · rw [applyInlined_of_readEntries_error hread]
    exact ⟨_, lower, held, hsources, hsources⟩
  · have hname : (Source.mk inlinedName held).name = inlinedName := rfl
    rw [applyInlined_of_readEntries hne hread, overlayInlined_of_some h]
    exact ⟨_, lower, held.update properties, hsources, sources_modify _ hname hsources⟩

/-! ## A run -/

theorem performAll_append (env : Environment) (operations more : List Operation) :
    env.performAll (operations ++ more) = (env.performAll operations).performAll more :=
  List.foldl_append

theorem Gathers.performAll :
    ∀ {operations : List Operation} {env : Environment} {lists : List (List Text)},
      env.Gathers lists → env.OnlyEntries operations →
        (env.performAll operations).Gathers (lists ++ env.takenLists operations)
  | [], _, lists, h, _ => by
    rwa [takenLists, List.append_nil]
  | operation :: rest, env, lists, h, honly => by
    have later := (h.perform honly.1).performAll honly.2
    rwa [List.append_assoc] at later

/-- In an environment without an inlined source entries are applied list by list, where each
application succeeds or fails and everything else in between is about other sources. In the end the
inlined source holds what the lists come to, in one, that the successful applications took in. It is
there just where one of them had an entry, and once it is there, an application changes no place. -/
theorem inlined_accumulates {operations : List Operation} (hnone : env.get? inlinedName = none)
    (honly : env.OnlyEntries operations) :
    let lists := env.takenLists operations
    let after := env.performAll operations
    (∃ m, Properties.readEntries lists.flatten = .ok m
        ∧ ∀ s, after.get? inlinedName = some s → s.properties = m)
      ∧ ((after.get? inlinedName).isSome ↔ ∃ entries ∈ lists, entries ≠ [])
      ∧ ∀ before entries rest s, operations = before ++ .applyInlined entries :: rest →
          (env.performAll before).get? inlinedName = some s →
          ∃ upper lower properties, (env.performAll before).sources = upper ++ s :: lower
            ∧ (env.performAll (before ++ [.applyInlined entries])).sources =
              upper ++ ⟨inlinedName, properties⟩ :: lower := by
  intro lists after
  obtain ⟨m, hread, hheld⟩ : after.Gathers lists := (gathers_nil hnone).performAll honly
  refine ⟨⟨m, hread, fun s hs => ?_⟩, ?_, ?_⟩
  · rw [hheld] at hs
    split at hs
    · cases hs
    · cases hs
      rfl
  · have hsome : (after.get? inlinedName).isSome ↔ ¬ lists.flatten = [] := by
      rw [hheld]
      split <;> simp [*]
    rw [hsome, List.flatten_eq_nil_iff]
    push Not
    rfl
  · intro before entries rest s _ hs
    obtain ⟨upper, lower, properties, hbefore, hafter⟩ := sources_applyInlined_of_get? hs entries
    exact ⟨upper, lower, properties, hbefore, by rw [performAll_append]; exact hafter⟩

/-- The second of three lists is rejected, and other sources come and go in between. -/
theorem inlined_accumulates_thrice :
    let env : Environment := ⟨twoSources, false⟩
    let first : List Text := ["a=1", " "]
    let rejected : List Text := ["c=1", "c"]
    let second : List Text := ["b=2", "a=3"]
    let operations : List Operation :=
      [.applyInlined first, .addHighest ⟨"x", ∅⟩, .applyInlined rejected, .readdHighest "copy",
        .applyInlined second, .remove "x"]
    let after := env.performAll operations
    env.get? inlinedName = none
      ∧ env.OnlyEntries operations
      ∧ env.takenLists operations = [first, second]
      ∧ after.names = [Text.ofString "copy", inlinedName, Text.ofString "base"]
      ∧ ∃ s, after.get? inlinedName = some s ∧ s.properties = .ofPairs [("a", "3"), ("b", "2")] := by
  intro env first rejected second operations after
  have hnone : env.get? inlinedName = none := rfl
  have honly : env.OnlyEntries operations := by
    refine ⟨fun _ => ⟨_, rfl⟩, ?_, fun _ => ⟨_, rfl⟩, ?_, fun _ => ⟨_, rfl⟩, ?_, trivial⟩
    all_goals exact fun h => absurd h (by decide)
  have hlists : env.takenLists operations = [first, second] := rfl
  have hread : Properties.readEntries [first, second].flatten =
      .ok (.ofPairs [("a", "3"), ("b", "2")]) := rfl
  obtain ⟨⟨m, hm, hheld⟩, hthere, -⟩ := inlined_accumulates hnone honly
  obtain ⟨s, hs⟩ := Option.isSome_iff_exists.mp
    (hthere.mpr ⟨_, hlists ▸ List.mem_cons_self, List.cons_ne_nil _ _⟩)
  refine ⟨hnone, honly, hlists, rfl, s, hs, ?_⟩
  rw [hheld s hs]
  rw [hlists, hread] at hm
  exact (Except.ok.inj hm).symm

end Environment

end PropertyLayers
