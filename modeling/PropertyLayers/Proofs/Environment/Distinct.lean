import PropertyLayers.Proofs.Environment.Inlined

/-!
# Sources of distinct names

An environment is made of sources of pairwise different names (`ofSources_eq_ok_iff`), and every
change to it keeps their names different. Then to remove the source of a name is to leave out what
has the name, and to add sources one after the other on top leaves of each name the last one, the
last of them first, over what has none of the names (`sources_addAllHighest`).
-/

namespace PropertyLayers

/-- The sources of other names than these. -/
def othersThan (names : List Text) (sources : List Source) : List Source :=
  sources.filter fun s => !names.contains s.name

/-- Of each name the last of these sources, the last one first. -/
def latest : List Source → List Source
  | [] => []
  | s :: rest => latest rest ++ othersThan (rest.map Source.name) [s]

section Others

variable {names more : List Text} {s : Source} {rest sources : List Source}

theorem mem_othersThan : s ∈ othersThan names sources ↔ s ∈ sources ∧ s.name ∉ names := by
  simp [othersThan]

theorem othersThan_cons_of_mem (h : s.name ∈ names) :
    othersThan names (s :: rest) = othersThan names rest :=
  List.filter_cons_of_neg (by simpa using h)

theorem othersThan_cons_of_not_mem (h : s.name ∉ names) :
    othersThan names (s :: rest) = s :: othersThan names rest :=
  List.filter_cons_of_pos (by simpa using h)

theorem othersThan_append (upper lower : List Source) :
    othersThan names (upper ++ lower) = othersThan names upper ++ othersThan names lower :=
  List.filter_append upper lower

theorem othersThan_eq_self (h : ∀ s ∈ sources, s.name ∉ names) : othersThan names sources = sources :=
  List.filter_eq_self.mpr fun s hs => by simpa using h s hs

theorem othersThan_eq_nil (h : ∀ s ∈ sources, s.name ∈ names) : othersThan names sources = [] :=
  List.filter_eq_nil_iff.mpr fun s hs => by simpa using h s hs

theorem othersThan_othersThan (sources : List Source) :
    othersThan more (othersThan names sources) = othersThan (names ++ more) sources := by
  rw [othersThan, othersThan, List.filter_filter]
  refine List.filter_congr fun s _ => Bool.eq_iff_iff.mpr ?_
  simp [and_comm]

theorem othersThan_othersThan_of_subset (h : names ⊆ more) (sources : List Source) :
    othersThan more (othersThan names sources) = othersThan more sources := by
  rw [othersThan, othersThan, List.filter_filter]
  refine List.filter_congr fun s _ => Bool.eq_iff_iff.mpr ?_
  simpa using fun hm hn => hm (h hn)

theorem nodup_othersThan_names (h : (sources.map Source.name).Nodup) (names : List Text) :
    ((othersThan names sources).map Source.name).Nodup :=
  h.sublist (List.filter_sublist.map Source.name)

/-- Where no name comes twice, to erase the first thing of a name is to leave out all of the name. -/
theorem eraseP_eq_filter_of_nodup {α : Type} {f : α → Text} {name : Text} :
    ∀ {things : List α}, (things.map f).Nodup →
      things.eraseP (fun a => f a = name) = things.filter fun a => f a ≠ name
  | [], _ => rfl
  | a :: rest, h => by
    rw [List.map_cons, List.nodup_cons] at h
    by_cases ha : f a = name
    · rw [List.eraseP_cons_of_pos (by simpa using ha), List.filter_cons_of_neg (by simpa using ha)]
      refine (List.filter_eq_self.mpr fun b hb => ?_).symm
      have hne : f b ≠ name := fun hn => h.1 (List.mem_map.mpr ⟨b, hb, hn.trans ha.symm⟩)
      simpa using hne
    · rw [List.eraseP_cons_of_neg (by simpa using ha), List.filter_cons_of_pos (by simpa using ha),
        eraseP_eq_filter_of_nodup h.2]

theorem eraseP_name_eq_othersThan {name : Text} (h : (sources.map Source.name).Nodup) :
    sources.eraseP (fun s => s.name = name) = othersThan [name] sources := by
  rw [eraseP_eq_filter_of_nodup h, othersThan]
  exact List.filter_congr fun s _ => by simp

end Others

theorem mem_latest_names {name : Text} :
    ∀ {sources : List Source},
      name ∈ (latest sources).map Source.name ↔ name ∈ sources.map Source.name
  | [] => Iff.rfl
  | s :: rest => by
    have ih : name ∈ (latest rest).map Source.name ↔ _ := mem_latest_names
    rw [latest, List.map_append, List.mem_append, ih, List.map_cons, List.mem_cons]
    by_cases hs : s.name ∈ rest.map Source.name
    · rw [othersThan_cons_of_mem hs]
      refine ⟨fun h => .inr (h.resolve_right List.not_mem_nil), ?_⟩
      rintro (rfl | h)
      · exact .inl hs
      · exact .inl h
    · rw [othersThan_cons_of_not_mem hs]
      simp [othersThan, or_comm]

namespace Environment

variable {env : Environment}

theorem foldlM_ofSources_eq_ok_iff {env' : Environment} :
    ∀ {sources : List Source} {env : Environment}, env.names.Nodup →
      (sources.foldlM (fun (env : Environment) source =>
          match env.get? source.name with
          | some _ => Except.error (DuplicateName.mk source.name)
          | none => .ok { env with sources := env.sources ++ [source] }) env = .ok env' ↔
        (env.names ++ sources.map Source.name).Nodup
          ∧ env' = { env with sources := env.sources ++ sources })
  | [], env, hn => by
    simp only [List.foldlM_nil, List.map_nil, List.append_nil]
    constructor
    · intro h
      cases h
      exact ⟨hn, rfl⟩
    · rintro ⟨-, rfl⟩
      rfl
  | s :: rest, env, hn => by
    rw [List.foldlM_cons]
    rcases hg : env.get? s.name with _ | t
    · have hs := get?_eq_none_iff.mp hg
      have hn' : ({ env with sources := env.sources ++ [s] } : Environment).names.Nodup := by
        simp only [names, List.map_append, List.map_cons, List.map_nil]
        refine List.nodup_append.mpr ⟨hn, by simp, fun a ha b hb hab => hs ?_⟩
        have hb : b = s.name := by simpa using hb
        rwa [← hb, ← hab]
      refine (foldlM_ofSources_eq_ok_iff hn').trans ?_
      simp [names]
    · have hs : s.name ∈ env.names := by
        rw [← (mem_of_get? hg).2]
        exact List.mem_map.mpr ⟨t, (mem_of_get? hg).1, rfl⟩
      refine iff_of_false (fun h => by cases h) fun h => ?_
      exact (List.nodup_append.mp h.1).2.2 _ hs _ (by simp) rfl

/-- Sources make an environment exactly where no two have the same name. -/
theorem ofSources_eq_ok_iff {sources : List Source} {lenient : Bool} :
    ofSources sources lenient = .ok env ↔
      (sources.map Source.name).Nodup ∧ env = ⟨sources, lenient⟩ := by
  have hstart : (empty lenient).names.Nodup := List.nodup_nil
  exact foldlM_ofSources_eq_ok_iff hstart

theorem sources_remove_of_nodup (h : env.names.Nodup) (name : Text) :
    (env.remove name).sources = othersThan [name] env.sources := by
  rw [sources_remove, eraseP_name_eq_othersThan h]

theorem sources_addHighest_of_nodup (h : env.names.Nodup) (source : Source) :
    (env.addHighest source).sources = source :: othersThan [source.name] env.sources := by
  rw [addHighest, sources_remove_of_nodup h]

theorem sources_addLowest_of_nodup (h : env.names.Nodup) (source : Source) :
    (env.addLowest source).sources = othersThan [source.name] env.sources ++ [source] := by
  rw [addLowest, sources_remove_of_nodup h]

theorem nodup_names_remove (h : env.names.Nodup) (name : Text) : (env.remove name).names.Nodup := by
  rw [names, sources_remove_of_nodup h]
  exact nodup_othersThan_names h [name]

theorem not_mem_names_remove (h : env.names.Nodup) (name : Text) :
    name ∉ (env.remove name).names := by
  rw [names, sources_remove_of_nodup h]
  intro hn
  obtain ⟨s, hs, rfl⟩ := List.mem_map.mp hn
  exact (mem_othersThan.mp hs).2 List.mem_cons_self

theorem nodup_names_addHighest (h : env.names.Nodup) (source : Source) :
    (env.addHighest source).names.Nodup :=
  List.nodup_cons.mpr ⟨not_mem_names_remove h source.name, nodup_names_remove h source.name⟩

theorem nodup_names_addLowest (h : env.names.Nodup) (source : Source) :
    (env.addLowest source).names.Nodup := by
  rw [addLowest, names, List.map_append]
  refine List.nodup_append.mpr ⟨nodup_names_remove h source.name, by simp, fun a ha b hb hab => ?_⟩
  have hb : b = source.name := by simpa using hb
  rw [hab, hb] at ha
  exact not_mem_names_remove h source.name ha

theorem names_modify (env : Environment) (name : Text) (change : PropertyMap → PropertyMap) :
    (env.modify name change).names = env.names := by
  have hgo : ∀ sources : List Source,
      (modify.go name change sources).map Source.name = sources.map Source.name := by
    intro sources
    induction sources with
    | nil => rfl
    | cons s rest ih =>
      rw [modify.go]
      split
      · rfl
      · rw [List.map_cons, List.map_cons, ih]
  exact hgo env.sources

/-- Where names are distinct, to change the first source of a name is to change what has the name. -/
theorem sources_modify_of_nodup (h : env.names.Nodup) (name : Text)
    (change : PropertyMap → PropertyMap) :
    (env.modify name change).sources = env.sources.map fun s =>
      if s.name = name then { s with properties := change s.properties } else s := by
  have hgo : ∀ sources : List Source, (sources.map Source.name).Nodup →
      modify.go name change sources = sources.map fun s =>
        if s.name = name then { s with properties := change s.properties } else s := by
    intro sources hn
    induction sources with
    | nil => rfl
    | cons s rest ih =>
      rw [List.map_cons, List.nodup_cons] at hn
      rw [modify.go, List.map_cons]
      by_cases hs : s.name = name
      · have hrest : ∀ t ∈ rest, t.name ≠ name := fun t ht hname =>
          hn.1 (List.mem_map.mpr ⟨t, ht, hname.trans hs.symm⟩)
        rw [if_pos hs, if_pos hs, List.map_congr_left fun t ht => if_neg (hrest t ht), List.map_id']
      · rw [if_neg hs, if_neg hs, ih hn.2]
  exact hgo env.sources h

/-- The sources that are added stand on top, of each name the last one, and the others keep
their order. -/
theorem sources_addAllHighest :
    ∀ (sources : List Source) {env : Environment}, env.names.Nodup →
      (env.addAllHighest sources).sources =
        latest sources ++ othersThan (sources.map Source.name) env.sources
  | [], env, _ => (othersThan_eq_self (by simp)).symm
  | s :: rest, env, h => by
    rw [addAllHighest_cons, sources_addAllHighest rest (nodup_names_addHighest h s),
      sources_addHighest_of_nodup h, latest, List.append_assoc, ← List.singleton_append,
      othersThan_append, othersThan_othersThan]
    rfl

end Environment

end PropertyLayers
