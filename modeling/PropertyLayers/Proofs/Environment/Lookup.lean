import Mathlib
import PropertyLayers.CommandLine.Run
import PropertyLayers.Proofs.Environment.Run
import PropertyLayers.Proofs.Keyed
import PropertyLayers.Proofs.Resource.Foreign

/-!
# Looking keys up

There are three ways to the value of a key: through the sources from the highest down, in all
sources laid over each other from the lowest up, and by a search for a source that holds the key.
All lead to the value in the first source that holds it (`rawProperty?_eq_some_iff`, `get?_asMap`,
`holder?_of_firstHolds`), and the keys of all sources stand in the order in which they first come
from the lowest up (`keys_asMap`). So there is an effective property for each of these keys, with
the source whose value was expanded (`effective_eq_ok_iff`), unless a value cannot be expanded; then
the first such value is the failure (`effective_eq_error_iff`).
-/

namespace PropertyLayers

section Traversal

variable {ε α β : Type} {f : α → Except ε β}

theorem mapM_eq_ok_iff :
    ∀ {as : List α} {bs : List β},
      as.mapM f = .ok bs ↔ List.Forall₂ (fun a b => f a = .ok b) as bs
  | [], bs => by cases bs <;> simp [pure, Except.pure]
  | a :: as, bs => by
    rw [List.mapM_cons]
    rcases ha : f a with e | b
    · cases bs <;> simp [ha, bind, Except.bind]
    · have ih : ∀ {bs}, as.mapM f = .ok bs ↔ _ := mapM_eq_ok_iff
      rcases has : as.mapM f with e | bs'
      · cases bs <;> simp [ha, has, ← ih, bind, Except.bind]
      · cases bs <;> simp [ha, has, ← ih, bind, Except.bind, pure, Except.pure]

theorem mapM_eq_error_iff {e : ε} :
    ∀ {as : List α}, as.mapM f = .error e ↔
      ∃ before a after, as = before ++ a :: after ∧ (∀ x ∈ before, ∃ b, f x = .ok b)
        ∧ f a = .error e
  | [] => by simp [pure, Except.pure]
  | a :: as => by
    have ih : as.mapM f = .error e ↔ _ := mapM_eq_error_iff
    rw [List.mapM_cons, bind_eq_error_iff]
    constructor
    · rintro (ha | ⟨b, ha, has⟩)
      · exact ⟨[], a, as, rfl, by simp, ha⟩
      · obtain ⟨before, a', after, rfl, hb, ha'⟩ := ih.mp (by
          simpa [bind_eq_error_iff, pure, Except.pure] using has)
        refine ⟨a :: before, a', after, rfl, ?_, ha'⟩
        exact List.forall_mem_cons.mpr ⟨⟨b, ha⟩, hb⟩
    · rintro ⟨_ | ⟨first, before⟩, a', after, hs, hb, ha'⟩
      · cases hs
        exact .inl ha'
      · cases hs
        obtain ⟨⟨b, ha⟩, hb⟩ := List.forall_mem_cons.mp hb
        have has := ih.mpr ⟨before, a', after, rfl, hb, ha'⟩
        refine .inr ⟨b, ha, bind_eq_error_iff.mpr (.inl has)⟩

end Traversal

namespace Environment

/-- The first source that holds the key is this one, and the key has this value there. -/
def FirstHolds (env : Environment) (key : Text) (s : Source) (value : Text) : Prop :=
  ∃ upper lower, env.sources = upper ++ s :: lower ∧ (∀ t ∈ upper, key ∉ t.properties.keys)
    ∧ s.properties.get? key = some value

variable {env : Environment} {key value raw : Text} {s : Source}

theorem rawProperty?_eq_some_iff :
    env.rawProperty? key = some value ↔ ∃ s, env.FirstHolds key s value := by
  rw [rawProperty?_eq, firstValue?, List.findSome?_eq_some_iff]
  constructor
  · rintro ⟨upper, s, lower, hs, hv, hu⟩
    exact ⟨s, upper, lower, hs, fun t ht => PropertyMap.get?_eq_none_iff.mp (hu t ht), hv⟩
  · rintro ⟨s, upper, lower, hs, hu, hv⟩
    exact ⟨upper, s, lower, hs, hv, fun t ht => PropertyMap.get?_eq_none_iff.mpr (hu t ht)⟩

theorem rawProperty?_eq_none_iff :
    env.rawProperty? key = none ↔ ∀ s ∈ env.sources, key ∉ s.properties.keys := by
  rw [rawProperty?_eq, firstValue?, List.findSome?_eq_none_iff]
  simp only [PropertyMap.get?_eq_none_iff]

theorem holder?_of_firstHolds (h : env.FirstHolds key s value) : env.holder? key = some s := by
  obtain ⟨upper, lower, hs, hu, hv⟩ := h
  refine List.find?_eq_some_iff_append.mpr ⟨by simp [PropertyMap.contains, hv], upper, lower, hs, ?_⟩
  intro t ht
  rw [Bool.not_eq_true', ← Bool.not_eq_true, PropertyMap.contains_iff]
  exact hu t ht

theorem property?_of_firstHolds (h : env.FirstHolds key s raw) :
    env.property? key = (expand env.scope env.lenient [key] raw).map some := by
  rw [property?, rawProperty?_eq_some_iff.mpr ⟨s, h⟩]

theorem get?_foldl_update (key : Text) :
    ∀ (sources : List Source) (m : PropertyMap),
      (sources.foldl (fun m s => m.update s.properties) m).get? key =
        (firstValue? sources.reverse key).or (m.get? key)
  | [], m => rfl
  | s :: rest, m => by
    rw [List.foldl_cons, get?_foldl_update key rest, PropertyMap.get?_update, List.reverse_cons,
      firstValue?_append, Option.or_assoc]
    simp [firstValue?]

theorem get?_asMap (env : Environment) (key : Text) :
    env.asMap.get? key = env.rawProperty? key := by
  rw [asMap, get?_foldl_update, List.reverse_reverse, rawProperty?_eq, PropertyMap.get?_empty,
    Option.or_none]

theorem entries_foldl_update :
    ∀ (sources : List Source) (m : PropertyMap),
      (sources.foldl (fun m s => m.update s.properties) m).entries =
        Keyed.putAll m.entries (sources.flatMap fun s => s.properties.entries)
  | [], m => rfl
  | s :: rest, m => by
    rw [List.foldl_cons, entries_foldl_update rest, List.flatMap_cons, Keyed.putAll, Keyed.putAll,
      List.foldl_append]
    rfl

/-- The keys come in the order in which the sources first hold them, from the lowest up. -/
theorem keys_asMap (env : Environment) :
    env.asMap.keys = (env.sources.reverse.flatMap fun s => s.properties.keys).eraseDups := by
  have hkeys := Keyed.keys_putAll []
    (env.sources.reverse.flatMap fun s => s.properties.entries)
  rw [PropertyMap.keys, asMap, entries_foldl_update]
  refine hkeys.trans ?_
  simp [List.removeAll, List.map_flatMap, PropertyMap.keys]

theorem mem_keys_asMap_iff : key ∈ env.asMap.keys ↔ ∃ s raw, env.FirstHolds key s raw := by
  rw [← not_iff_not, ← PropertyMap.get?_eq_none_iff, get?_asMap, Option.eq_none_iff_forall_ne_some]
  simp only [ne_eq, rawProperty?_eq_some_iff, not_exists]
  exact ⟨fun h s raw => h raw s, fun h raw s => h s raw⟩

/-- An effective property of the environment: the expansion of the value in the first source that
holds the key, shown with the name of this source. -/
def Shows (env : Environment) (key : Text) (p : EffectiveProperty) : Prop :=
  p.key = key ∧ ∃ s raw, env.FirstHolds key s raw
    ∧ expand env.scope env.lenient [key] raw = .ok p.value
    ∧ p.source = s.name ∧ env.get? p.source = some s

/-- The first of the keys with a value that cannot be expanded. -/
def StopsAt (env : Environment) (fault : UnexpandedPlaceholder) : Prop :=
  ∃ before key after s raw, env.asMap.keys = before ++ key :: after
    ∧ (∀ k ∈ before, ∃ p, env.Shows k p) ∧ env.FirstHolds key s raw
    ∧ expand env.scope env.lenient [key] raw = .error fault

theorem effective?_of_firstHolds (h : env.FirstHolds key s raw) :
    env.effective? key = (expand env.scope env.lenient [key] raw).map fun value =>
      some ⟨key, value, s.name⟩ := by
  rw [effective?, holder?_of_firstHolds h, property?_of_firstHolds h]
  cases expand env.scope env.lenient [key] raw <;> rfl

theorem FirstHolds.get?_name (hn : env.names.Nodup) (h : env.FirstHolds key s raw) :
    env.get? s.name = some s := by
  obtain ⟨upper, lower, hs, -⟩ := h
  rw [names, hs, List.map_append, List.map_cons] at hn
  refine List.find?_eq_some_iff_append.mpr ⟨by simp, upper, lower, hs, fun t ht => ?_⟩
  have hne := (List.nodup_append.mp hn).2.2 t.name (List.mem_map.mpr ⟨t, ht, rfl⟩) s.name
    List.mem_cons_self
  simpa using hne

section Effective

variable (hn : env.names.Nodup)

include hn

theorem effective?_eq_ok_iff (hk : key ∈ env.asMap.keys) {p? : Option EffectiveProperty} :
    env.effective? key = .ok p? ↔ ∃ p, p? = some p ∧ env.Shows key p := by
  obtain ⟨s, raw, h⟩ := mem_keys_asMap_iff.mp hk
  rw [effective?_of_firstHolds h]
  constructor
  · intro he
    rcases hv : expand env.scope env.lenient [key] raw with fault | value <;> rw [hv] at he
    · cases he
    · cases he
      exact ⟨_, rfl, rfl, s, raw, h, hv, rfl, h.get?_name hn⟩
  · rintro ⟨⟨_, value, _⟩, rfl, rfl, t, raw', h', hv, rfl, -⟩
    -- The first source that holds the key is the only one that does so first.
    have hst := (holder?_of_firstHolds h).symm.trans (holder?_of_firstHolds h')
    have hraw := (rawProperty?_eq_some_iff.mpr ⟨s, h⟩).symm.trans
      (rawProperty?_eq_some_iff.mpr ⟨t, h'⟩)
    cases hst
    cases hraw
    rw [hv]
    rfl

theorem forall₂_effective?_iff :
    ∀ {keys : List Text} {results : List (Option EffectiveProperty)},
      keys ⊆ env.asMap.keys →
        (List.Forall₂ (fun key p? => env.effective? key = .ok p?) keys results ↔
          ∃ properties, results = properties.map some ∧ List.Forall₂ env.Shows keys properties)
  | [], results, _ => by simp
  | key :: rest, results, h => by
    obtain ⟨hk, hrest⟩ := List.cons_subset.mp h
    have ih : ∀ {results}, List.Forall₂ _ rest results ↔ _ := forall₂_effective?_iff hrest
    simp only [List.forall₂_cons_left_iff, effective?_eq_ok_iff hn hk, ih]
    constructor
    · rintro ⟨_, _, ⟨p, rfl, hp⟩, ⟨properties, rfl, hps⟩, rfl⟩
      exact ⟨p :: properties, rfl, p, properties, hp, hps, rfl⟩
    · rintro ⟨_, rfl, p, properties, hp, hps, rfl⟩
      exact ⟨some p, properties.map some, ⟨p, rfl, hp⟩, ⟨properties, rfl, hps⟩, rfl⟩

theorem effective_eq_ok_iff {properties : List EffectiveProperty} :
    env.effective = .ok properties ↔ List.Forall₂ env.Shows env.asMap.keys properties := by
  have hsome : ∀ ps : List EffectiveProperty, (ps.map some).reduceOption = ps := fun ps => by
    simp [List.reduceOption]
  have hall : ∀ {results}, env.asMap.keys.mapM env.effective? = .ok results ↔ _ :=
    mapM_eq_ok_iff.trans (forall₂_effective?_iff hn (List.Subset.refl _))
  rw [effective]
  constructor
  · intro h
    rcases hm : env.asMap.keys.mapM env.effective? with fault | results <;> rw [hm] at h
    · cases h
    · obtain ⟨ps, rfl, hps⟩ := hall.mp hm
      cases h
      rwa [hsome]
  · intro h
    rw [hall.mpr ⟨properties, rfl, h⟩]
    exact congrArg Except.ok (hsome properties)

theorem effective_eq_error_iff {fault : UnexpandedPlaceholder} :
    env.effective = .error fault ↔ env.StopsAt fault := by
  have herror : env.effective = .error fault ↔
      env.asMap.keys.mapM env.effective? = .error fault := by
    rw [effective, bind_eq_error_iff]
    simp [pure, Except.pure]
  rw [herror, mapM_eq_error_iff]
  constructor
  · rintro ⟨before, key, after, hs, hb, hk⟩
    obtain ⟨s, raw, h⟩ := mem_keys_asMap_iff.mp (by rw [hs]; simp : key ∈ env.asMap.keys)
    refine ⟨before, key, after, s, raw, hs, fun k hkb => ?_, h, ?_⟩
    · obtain ⟨p?, hp⟩ := hb k hkb
      obtain ⟨p, -, hp⟩ := (effective?_eq_ok_iff hn (by rw [hs]; simp [hkb])).mp hp
      exact ⟨p, hp⟩
    · rw [effective?_of_firstHolds h] at hk
      rcases hv : expand env.scope env.lenient [key] raw with fault' | value <;> rw [hv] at hk
      · cases hk
        rfl
      · cases hk
  · rintro ⟨before, key, after, s, raw, hs, hb, h, hk⟩
    refine ⟨before, key, after, hs, fun k hkb => ?_, ?_⟩
    · obtain ⟨p, hp⟩ := hb k hkb
      exact ⟨some p, (effective?_eq_ok_iff hn (by rw [hs]; simp [hkb])).mpr ⟨p, rfl, hp⟩⟩
    · rw [effective?_of_firstHolds h, hk]
      rfl

end Effective

/-- The keys of the lower source come first, and `b` is shown as a property of the upper one. -/
example :
    effective ⟨[⟨"top", .ofPairs [("a", "1"), ("b", "$\x7bc\x7d")]⟩,
      ⟨"low", .ofPairs [("b", "x"), ("c", "2")]⟩], false⟩ =
      .ok [⟨"b", "2", "top"⟩, ⟨"c", "2", "low"⟩, ⟨"a", "1", "top"⟩] := by
  cbv

/-- What it means that all lookups in an environment agree. -/
structure Lookups (env : Environment) : Prop where
  mem_keys_iff : ∀ key, key ∈ env.asMap.keys ↔ env.rawProperty? key ≠ none
  held_iff : ∀ key, env.rawProperty? key ≠ none ↔ ∃ s ∈ env.sources, key ∈ s.properties.keys
  value : ∀ key, env.asMap.get? key = env.rawProperty? key
  first : ∀ key value, env.rawProperty? key = some value ↔ ∃ s, env.FirstHolds key s value
  /-- The keys in the order in which they first come, from the lowest source up. -/
  order : env.asMap.keys = (env.sources.reverse.flatMap fun s => s.properties.keys).eraseDups
  /-- For a key of the environment there is a source, and there is a value. -/
  found : ∀ key ∈ env.asMap.keys, env.holder? key ≠ none ∧ env.property? key ≠ .ok none
  effective : ∀ properties, env.effective = .ok properties ↔
    List.Forall₂ env.Shows env.asMap.keys properties
  stops : ∀ fault, env.effective = .error fault ↔ env.StopsAt fault

theorem found_of_mem_keys (h : key ∈ env.asMap.keys) :
    env.holder? key ≠ none ∧ env.property? key ≠ .ok none := by
  obtain ⟨s, raw, h⟩ := mem_keys_asMap_iff.mp h
  rw [holder?_of_firstHolds h, property?_of_firstHolds h]
  refine ⟨Option.some_ne_none s, ?_⟩
  cases expand env.scope env.lenient [key] raw <;> simp [Except.map]

theorem lookups_of_nodup (hn : env.names.Nodup) : env.Lookups where
  mem_keys_iff key := by rw [← get?_asMap, ne_eq, PropertyMap.get?_eq_none_iff, not_not]
  held_iff key := by
    rw [ne_eq, rawProperty?_eq_none_iff]
    simp
  value := get?_asMap env
  first _ _ := rawProperty?_eq_some_iff
  order := keys_asMap env
  found _ := found_of_mem_keys
  effective _ := effective_eq_ok_iff hn
  stops _ := effective_eq_error_iff hn

section Command

variable {cp : ClassPath} {settings : Settings} {merged : MergedSources}

theorem effective_command_eq_ok_iff {properties : List EffectiveProperty} :
    Surroundings.effective cp settings merged = .ok properties ↔
      ((empty settings.lenient).applyMerged cp.loader settings.encoding merged).failure? = none
        ∧ ((empty settings.lenient).applyMerged cp.loader settings.encoding
          merged).environment.effective = .ok properties := by
  rw [Surroundings.effective]
  rcases ((empty settings.lenient).applyMerged cp.loader settings.encoding merged).failure?
    with _ | stop
  · rcases ((empty settings.lenient).applyMerged cp.loader settings.encoding
      merged).environment.effective with fault | ps <;> simp [Except.mapError]
  · simp

theorem effective_command_eq_error_iff {failure : Failure} :
    Surroundings.effective cp settings merged = .error failure ↔
      ((empty settings.lenient).applyMerged cp.loader settings.encoding merged).failure? =
          some failure
        ∨ ((empty settings.lenient).applyMerged cp.loader settings.encoding merged).failure? = none
          ∧ ∃ fault, ((empty settings.lenient).applyMerged cp.loader settings.encoding
            merged).environment.effective = .error fault ∧ failure = .unexpanded fault := by
  rw [Surroundings.effective]
  rcases ((empty settings.lenient).applyMerged cp.loader settings.encoding merged).failure?
    with _ | stop
  · rcases ((empty settings.lenient).applyMerged cp.loader settings.encoding
      merged).environment.effective with fault | ps <;> simp [Except.mapError, eq_comm]
  · simp

end Command

/-- All lookups agree in an environment of distinct names. The command that shows the effective
properties of merged sources makes such an environment: it shows a property for each key of it, or
else it fails where the sources cannot be applied or where a value cannot be expanded. -/
theorem lookups_agree :
    (∀ env : Environment, env.names.Nodup → env.Lookups) ∧
      ∀ (cp : ClassPath) (settings : Settings) (merged : MergedSources),
        let applied := (empty settings.lenient).applyMerged cp.loader settings.encoding merged
        applied.environment.Lookups ∧
        (∀ properties, Surroundings.effective cp settings merged = .ok properties ↔
          applied.failure? = none ∧
            List.Forall₂ applied.environment.Shows applied.environment.asMap.keys properties) ∧
        ∀ failure, Surroundings.effective cp settings merged = .error failure ↔
          applied.failure? = some failure ∨ applied.failure? = none ∧
            ∃ fault, applied.environment.StopsAt fault ∧ failure = .unexpanded fault := by
  refine ⟨fun env hn => lookups_of_nodup hn, fun cp settings merged => ?_⟩
  intro applied
  have hstart : (empty settings.lenient).names.Nodup := List.nodup_nil
  have hlookups : applied.environment.Lookups :=
    lookups_of_nodup (keeps_applyMerged hstart cp.loader settings.encoding merged).distinct
  refine ⟨hlookups, fun properties => ?_, fun failure => ?_⟩
  · rw [effective_command_eq_ok_iff, ← hlookups.effective]
  · rw [effective_command_eq_error_iff]
    simp only [← hlookups.stops]
    rfl

/-- Three sources, each of which holds a key that another one holds too. -/
def overlapping : Environment where
  sources :=
    [⟨"top", .ofPairs [("a", "1"), ("b", "$\x7bc\x7d")]⟩,
      ⟨"mid", .ofPairs [("c", "2"), ("a", "0")]⟩,
      ⟨"low", .ofPairs [("b", "x"), ("d", "3")]⟩]
  lenient := false

theorem lookups_agree_overlapping : overlapping.names.Nodup ∧ overlapping.Lookups := by
  have hn : overlapping.names.Nodup := by decide
  exact ⟨hn, lookups_agree.1 overlapping hn⟩

end Environment

end PropertyLayers
