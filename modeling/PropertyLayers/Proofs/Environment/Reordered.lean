import Mathlib.Tactic.Choose
import PropertyLayers.Proofs.Environment.Failed
import PropertyLayers.Proofs.Placeholder.Form
import PropertyLayers.Proofs.Placeholder.Reachable

/-!
# Locations in another order

Locations without placeholders may be applied in any order if the resources of different ones have
no key in common. The sources come to stand in another order, but only on top of what is left of
those that stood there before, and each of them holds keys of its own (`Reordered.rawProperty?_eq`).
To add one more source keeps it so (`Reordered.addHighest`). So every key has the same value, and
every value and every text is expanded to the same (`sameValues_applyLocations`).
-/

namespace PropertyLayers

/-- Sources of one name are the same, and sources of different names have no key in common. -/
structure Independent (sources : List Source) : Prop where
  same : ∀ s ∈ sources, ∀ t ∈ sources, s.name = t.name → s = t
  apart : ∀ s ∈ sources, ∀ t ∈ sources, s.name ≠ t.name →
    s.properties.keys.Disjoint t.properties.keys

theorem Independent.mono {sources more : List Source} (h : Independent more)
    (hs : sources ⊆ more) : Independent sources :=
  ⟨fun s hm t ht => h.same s (hs hm) t (hs ht), fun s hm t ht => h.apart s (hs hm) t (hs ht)⟩

/-- Of what gives one value at most, the order does not matter. -/
theorem findSome?_eq_of_perm {α β : Type} {f : α → Option β} {as bs : List α} (h : as.Perm bs)
    (hone : as.Pairwise fun a b => f a = none ∨ f b = none) :
    as.findSome? f = bs.findSome? f := by
  induction h with
  | nil => rfl
  | cons a _ ih => rw [List.findSome?_cons, List.findSome?_cons, ih hone.of_cons]
  | swap a b rest =>
    have hab : f b = none ∨ f a = none := (List.pairwise_cons.mp hone).1 a List.mem_cons_self
    rcases hab with hnone | hnone <;> simp [List.findSome?_cons, hnone]
  | trans hfirst _ ih ih' => exact (ih hone).trans (ih' (hone.perm hfirst Or.symm))

theorem firstValue?_eq_of_perm {sources reordered : List Source} (h : sources.Perm reordered)
    (hnames : (sources.map Source.name).Nodup) (hindependent : Independent sources) (key : Text) :
    firstValue? sources key = firstValue? reordered key := by
  refine findSome?_eq_of_perm h ((List.pairwise_map.mp hnames).imp_of_mem ?_)
  intro s t hs ht hne
  by_cases hkey : key ∈ s.properties.keys
  · exact .inr (PropertyMap.get?_eq_none_iff.mpr (hindependent.apart s hs t ht hne hkey))
  · exact .inl (PropertyMap.get?_eq_none_iff.mpr hkey)

theorem eraseP_name_append {upper : List Source} (h : (upper.map Source.name).Nodup)
    (name : Text) (lower : List Source) :
    (upper ++ lower).eraseP (fun s => s.name = name) = othersThan [name] upper ++
      if name ∈ upper.map Source.name then lower else lower.eraseP fun s => s.name = name := by
  split
  · next hmem =>
    obtain ⟨s, hs, hname⟩ := List.mem_map.mp hmem
    rw [List.eraseP_append_left (by simpa using hname) lower hs, eraseP_name_eq_othersThan h]
  · next hmem =>
    have hother : ∀ s ∈ upper, s.name ≠ name := fun s hs hname =>
      hmem (List.mem_map.mpr ⟨s, hs, hname⟩)
    rw [List.eraseP_append_right lower (by simpa using hother),
      othersThan_eq_self (by simpa using hother)]

namespace Environment

/-- Among these sources some stand on top of both environments, each of another name. They may stand
in another order, and what stands below them is the same. -/
def Reordered (among : List Source) (a b : Environment) : Prop :=
  ∃ upper upper' lower, a.sources = upper ++ lower ∧ b.sources = upper' ++ lower
    ∧ upper.Perm upper' ∧ (upper.map Source.name).Nodup ∧ upper ⊆ among

variable {among : List Source} {a b env : Environment}

theorem Reordered.refl (among : List Source) (env : Environment) : Reordered among env env :=
  ⟨[], [], env.sources, rfl, rfl, .nil, List.nodup_nil, List.nil_subset among⟩

theorem Reordered.rawProperty?_eq (h : Reordered among a b) (hamong : Independent among)
    (key : Text) : a.rawProperty? key = b.rawProperty? key := by
  obtain ⟨upper, upper', lower, ha, hb, hperm, hnames, hsub⟩ := h
  rw [Environment.rawProperty?_eq, Environment.rawProperty?_eq, ha, hb, firstValue?_append,
    firstValue?_append, firstValue?_eq_of_perm hperm hnames (hamong.mono hsub)]

theorem Reordered.addHighest {s : Source} (h : Reordered among a b) (hs : s ∈ among) :
    Reordered among (a.addHighest s) (b.addHighest s) := by
  obtain ⟨upper, upper', lower, ha, hb, hperm, hnames, hsub⟩ := h
  have hnames' : (upper'.map Source.name).Nodup := (hperm.map Source.name).nodup hnames
  have hmem : s.name ∈ upper'.map Source.name ↔ s.name ∈ upper.map Source.name :=
    (hperm.map Source.name).mem_iff.symm
  refine ⟨s :: othersThan [s.name] upper, s :: othersThan [s.name] upper',
    if s.name ∈ upper.map Source.name then lower else lower.eraseP fun t => t.name = s.name,
    ?_, ?_, (hperm.filter _).cons s, ?_, ?_⟩
  · rw [sources_addHighest, ha, eraseP_name_append hnames]
    rfl
  · rw [sources_addHighest, hb, eraseP_name_append hnames']
    simp only [hmem]
    rfl
  · rw [List.map_cons]
    refine List.nodup_cons.mpr ⟨fun hm => ?_, nodup_othersThan_names hnames [s.name]⟩
    obtain ⟨t, ht, hname⟩ := List.mem_map.mp hm
    exact (mem_othersThan.mp ht).2 (List.mem_singleton.mpr hname)
  · exact List.cons_subset.mpr ⟨hs, fun t ht => hsub (mem_othersThan.mp ht).1⟩

theorem Reordered.addAllHighest :
    ∀ {sources : List Source} {a b : Environment}, Reordered among a b → sources ⊆ among →
      Reordered among (a.addAllHighest sources) (b.addAllHighest sources)
  | [], _, _, h, _ => h
  | s :: rest, _, _, h, hsub => by
    obtain ⟨hs, hrest⟩ := List.cons_subset.mp hsub
    rw [addAllHighest_cons, addAllHighest_cons]
    exact Reordered.addAllHighest (h.addHighest hs) hrest

/-- Of two sources it does not matter which is added first. -/
theorem reordered_swap {s t : Source} (hamong : Independent among) (hs : s ∈ among)
    (ht : t ∈ among) :
    Reordered among ((env.addHighest s).addHighest t) ((env.addHighest t).addHighest s) := by
  by_cases hname : s.name = t.name
  · rw [hamong.same s hs t ht hname]
    exact .refl among _
  · have herase : ∀ other ∈ env.sources,
        ¬ decide (other.name = t.name) ∨ ¬ decide (other.name = s.name) := by
      intro other _
      by_cases ho : other.name = t.name
      · exact .inr (by simpa [ho] using Ne.symm hname)
      · exact .inl (by simpa using ho)
    refine ⟨[t, s], [s, t],
      (env.sources.eraseP fun other => other.name = s.name).eraseP fun other => other.name = t.name,
      ?_, ?_, .swap s t [], by simpa using Ne.symm hname, by simp [hs, ht]⟩
    · rw [sources_addHighest, sources_addHighest, List.eraseP_cons_of_neg (by simpa using hname)]
      rfl
    · rw [sources_addHighest, sources_addHighest,
        List.eraseP_cons_of_neg (by simpa using Ne.symm hname), List.eraseP_comm herase]
      rfl

-- The induction is on the permutation. Where two sources change places, the environments are the
-- same but for the order on top, and stay so while the others are added.
theorem rawProperty?_addAllHighest_of_perm {sources reordered : List Source}
    (h : sources.Perm reordered) (hindependent : Independent sources) (env : Environment)
    (key : Text) :
    (env.addAllHighest sources).rawProperty? key =
      (env.addAllHighest reordered).rawProperty? key := by
  induction h generalizing env with
  | nil => rfl
  | cons s _ ih =>
    exact ih (hindependent.mono (List.subset_cons_self s _)) (env.addHighest s)
  | swap s t rest =>
    have hswap : Reordered (t :: s :: rest) ((env.addHighest t).addHighest s)
        ((env.addHighest s).addHighest t) :=
      reordered_swap hindependent List.mem_cons_self (by simp)
    exact (hswap.addAllHighest (by simp)).rawProperty?_eq hindependent key
  | trans hfirst _ ih ih' =>
    exact (ih hindependent env).trans (ih' (hindependent.mono hfirst.symm.subset) env)

/-- Every key has the same value, with its placeholders and with these expanded, and every text is
expanded to the same or fails alike. -/
structure SameValues (a b : Environment) : Prop where
  raw : ∀ key, a.rawProperty? key = b.rawProperty? key
  property : ∀ key, a.property? key = b.property? key
  resolve : ∀ text, a.resolve text = b.resolve text

theorem sameValues_of_raw (hraw : ∀ key, a.rawProperty? key = b.rawProperty? key)
    (hlenient : a.lenient = b.lenient) : SameValues a b := by
  have hexpand : ∀ visiting text,
      expand a.scope a.lenient visiting text = expand b.scope b.lenient visiting text := by
    intro visiting text
    rw [hlenient]
    exact (expand_congr fun key _ => hraw key).2 b.lenient visiting visiting fun _ _ => Iff.rfl
  refine ⟨hraw, fun key => ?_, hexpand []⟩
  rw [property?, property?, hraw key]
  simp only [hexpand]

variable {loader : Loader} {encoding : Text}

/-- The locations hold no placeholder and load, and different ones give sources that have no key in
common. -/
structure Unrelated (loader : Loader) (encoding : Text) (locations : List Text) : Prop where
  plain : ∀ location ∈ locations, ¬ HoldsPlaceholder location
  loads : ∀ location ∈ locations, ∃ s, loader.source location encoding = .ok s
  apart : ∀ first ∈ locations, ∀ second ∈ locations, first ≠ second →
    ∀ s t, loader.source first encoding = .ok s → loader.source second encoding = .ok t →
      s.properties.keys.Disjoint t.properties.keys

theorem resolveLocation_of_not_holds (staged : List Source) {location : Text}
    (h : ¬ HoldsPlaceholder location) : env.resolveLocation staged location = .ok location := by
  rw [resolveLocation, expand_of_not_holds true [] h]
  exact expand_of_not_holds env.lenient [] h

theorem loads_map {source : Text → Source} :
    ∀ {locations : List Text} (staged : List Source),
      (∀ location ∈ locations, ¬ HoldsPlaceholder location) →
        (∀ location ∈ locations, loader.source location encoding = .ok (source location)) →
          env.Loads loader encoding staged locations (locations.map source)
  | [], _, _, _ => .nil
  | location :: _, staged, hplain, hsource => by
    obtain ⟨hplain, hplains⟩ := List.forall_mem_cons.mp hplain
    obtain ⟨hsource, hsources⟩ := List.forall_mem_cons.mp hsource
    exact .cons (resolveLocation_of_not_holds staged hplain) hsource
      (loads_map (staged ++ [source location]) hplains hsources)

theorem Unrelated.independent {locations : List Text} {source : Text → Source}
    (h : Unrelated loader encoding locations)
    (hsource : ∀ location ∈ locations, loader.source location encoding = .ok (source location)) :
    Independent (locations.map source) := by
  have hname : ∀ location ∈ locations, (source location).name = location :=
    fun location hm => Loader.name_of_source (hsource location hm)
  constructor
  · intro s hs t ht hst
    obtain ⟨first, hfirst, rfl⟩ := List.mem_map.mp hs
    obtain ⟨second, hsecond, rfl⟩ := List.mem_map.mp ht
    rw [hname first hfirst, hname second hsecond] at hst
    rw [hst]
  · intro s hs t ht hst
    obtain ⟨first, hfirst, rfl⟩ := List.mem_map.mp hs
    obtain ⟨second, hsecond, rfl⟩ := List.mem_map.mp ht
    refine h.apart first hfirst second hsecond (fun he => hst ?_) _ _ (hsource first hfirst)
      (hsource second hsecond)
    rw [he]

/-- Unrelated locations can be applied in every order, and lead to environments with the same
values. -/
theorem sameValues_applyLocations {locations reordered : List Text}
    (hperm : locations.Perm reordered) (h : Unrelated loader encoding locations)
    (env : Environment) :
    let first := env.applyLocations loader encoding locations
    let second := env.applyLocations loader encoding reordered
    first.failure? = none ∧ second.failure? = none
      ∧ SameValues first.environment second.environment := by
  have : Nonempty Source := ⟨⟨[], ∅⟩⟩
  choose! source hsource using h.loads
  have hreordered : ∀ location ∈ reordered, location ∈ locations :=
    fun location hm => hperm.mem_iff.mpr hm
  rw [applyLocations_eq_of_loads (loads_map [] h.plain hsource),
    applyLocations_eq_of_loads (loads_map [] (fun location hm => h.plain location
      (hreordered location hm)) fun location hm => hsource location (hreordered location hm))]
  refine ⟨rfl, rfl, sameValues_of_raw ?_ ?_⟩
  · exact rawProperty?_addAllHighest_of_perm (hperm.map source) (h.independent hsource) env
  · rw [lenient_addAllHighest, lenient_addAllHighest]

/-- The second resource gives the key to which the value in the first one leads. -/
def unrelatedResources : Loader :=
  .ofEntries [("x", [97, 61, 36, 123, 98, 125]), ("y", [98, 61, 50])]

/-- The environment holds a source under the name of a location, with the keys of both. -/
def keysBefore : Environment :=
  ⟨[⟨"base", .ofPairs [("n", "$\x7ba\x7d")]⟩, ⟨"x", .ofPairs [("a", "0"), ("b", "1")]⟩], false⟩

theorem unrelated_unrelatedResources :
    Unrelated unrelatedResources "utf-8" ["x", "y", "x"] := by
  have hx : unrelatedResources.source "x" "utf-8" =
      .ok ⟨"x", .ofPairs [("a", "$\x7bb\x7d")]⟩ := rfl
  have hy : unrelatedResources.source "y" "utf-8" = .ok ⟨"y", .ofPairs [("b", "2")]⟩ := rfl
  have hlocation : ∀ location ∈ [Text.ofString "x", "y", "x"],
      location = Text.ofString "x" ∨ location = Text.ofString "y" := by decide
  have hbrace : ∀ location ∈ [Text.ofString "x", "y", "x"], closeBrace ∉ location := by decide
  have hkeys : ∀ key ∈ (PropertyMap.ofPairs [("a", "$\x7bb\x7d")]).keys,
      key ∉ (PropertyMap.ofPairs [("b", "2")]).keys := by decide
  refine ⟨fun location hm => ?_, fun location hm => ?_, ?_⟩
  · rintro ⟨p, -, hp⟩
    exact hbrace location hm (hp.subset (Placeholder.closeBrace_mem_source p))
  · rcases hlocation location hm with rfl | rfl
    · exact ⟨_, hx⟩
    · exact ⟨_, hy⟩
  · intro first hfirst second hsecond hne s t hs ht key hkey hkey'
    rcases hlocation first hfirst with rfl | rfl <;>
      rcases hlocation second hsecond with rfl | rfl
    · exact hne rfl
    · cases hx.symm.trans hs
      cases hy.symm.trans ht
      exact hkeys key hkey hkey'
    · cases hy.symm.trans hs
      cases hx.symm.trans ht
      exact hkeys key hkey' hkey
    · exact hne rfl

/-- One location comes twice, and in the other order it does not come last. -/
theorem sameValues_applyLocations_twice :
    let first := keysBefore.applyLocations unrelatedResources "utf-8" ["x", "y", "x"]
    let second := keysBefore.applyLocations unrelatedResources "utf-8" ["x", "x", "y"]
    List.Perm [Text.ofString "x", "y", "x"] ["x", "x", "y"]
      ∧ Unrelated unrelatedResources "utf-8" ["x", "y", "x"]
      ∧ first.failure? = none ∧ second.failure? = none
      ∧ SameValues first.environment second.environment := by
  have hperm : List.Perm [Text.ofString "x", "y", "x"] ["x", "x", "y"] := by decide
  exact ⟨hperm, unrelated_unrelatedResources,
    sameValues_applyLocations hperm unrelated_unrelatedResources keysBefore⟩

end Environment

end PropertyLayers
