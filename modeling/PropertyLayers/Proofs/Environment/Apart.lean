import Mathlib
import PropertyLayers.Proofs.Environment.Shared

/-!
# Mappings that are not shared

Whatever is done to an environment, one operation after the other and whether each succeeds or
fails, no two of its sources come to have the same name, so what is removed under a name is the
source held under it and no other that looks the same (`distinct_performAll`). Unless two sources
share a mapping from the start or one is added with the mapping of another, no mapping comes to be
shared (`Apart.performAll`), and then all is as for sources that have their properties to
themselves (`environment_performAll`).
-/

namespace PropertyLayers.SharedEnvironment

variable {env : SharedEnvironment} {name : Text} {holder : Holder}

/-- No two sources have one mapping. -/
def Apart (env : SharedEnvironment) : Prop := env.places.Nodup

theorem Apart.eq_of_place (ha : env.Apart) {other : Holder} (hh : holder ∈ env.holders)
    (ho : other ∈ env.holders) (hp : other.place = holder.place) : other = holder :=
  List.inj_on_of_nodup_map ha ho hh hp

theorem Apart.remove (ha : env.Apart) (h : env.names.Nodup) (name : Text) :
    (env.remove name).Apart := by
  rw [Apart, places, holders_remove h]
  exact ha.sublist (List.filter_sublist.map Holder.place)

/-- A source at a place that only a source of its name had keeps mappings apart. -/
theorem Apart.addHighest (ha : env.Apart) (h : env.names.Nodup)
    (hp : ∀ other ∈ env.holders, other.place = holder.place → other.name = holder.name) :
    (env.addHighest holder).Apart := by
  refine List.nodup_cons.mpr ⟨fun hin => ?_, ha.remove h holder.name⟩
  obtain ⟨other, ho, hplace⟩ := List.mem_map.mp hin
  rw [holders_remove h] at ho
  obtain ⟨ho, hne⟩ := List.mem_filter.mp ho
  exact of_decide_eq_true hne (hp other ho hplace)

theorem Apart.addLowest (ha : env.Apart) (h : env.names.Nodup)
    (hp : ∀ other ∈ env.holders, other.place = holder.place → other.name = holder.name) :
    (env.addLowest holder).Apart := by
  have hperm : (env.addLowest holder).places.Perm (env.addHighest holder).places := by
    exact (List.perm_append_singleton holder _).map Holder.place
  exact hperm.nodup_iff.mpr (ha.addHighest h hp)

theorem Apart.addOwnHighest (ha : env.Apart) (h : env.names.Nodup) (source : Source) :
    (env.addOwnHighest source).Apart :=
  addHighest ha h fun _ ho hplace => absurd hplace (Nat.ne_of_lt (lt_fresh ho))

theorem Apart.addOwnLowest (ha : env.Apart) (h : env.names.Nodup) (source : Source) :
    (env.addOwnLowest source).Apart :=
  addLowest ha h fun _ ho hplace => absurd hplace (Nat.ne_of_lt (lt_fresh ho))

theorem Apart.modify (ha : env.Apart) (name : Text) (change : PropertyMap → PropertyMap) :
    (env.modify name change).Apart := by
  unfold SharedEnvironment.modify
  split
  · exact ha
  · exact ha

theorem Apart.addAllHighest :
    ∀ (sources : List Source) {env : SharedEnvironment}, env.Apart → env.names.Nodup →
      (env.addAllHighest sources).Apart
  | [], _, ha, _ => ha
  | source :: rest, _, ha, h =>
    addAllHighest rest (ha.addOwnHighest h source) (keeps_addOwnHighest h source).distinct

theorem Apart.overlayInlined (ha : env.Apart) (h : env.names.Nodup) (properties : PropertyMap) :
    (env.overlayInlined properties).Apart := by
  unfold SharedEnvironment.overlayInlined
  split
  · exact ha.addOwnHighest h _
  · exact ha.modify _ _

theorem Apart.applyInlined (ha : env.Apart) (h : env.names.Nodup) (entries : List Text) :
    (env.applyInlined entries).environment.Apart := by
  unfold SharedEnvironment.applyInlined
  split
  · exact ha
  · split
    · exact ha.overlayInlined h _
    · exact ha

theorem Apart.applyLocations (ha : env.Apart) (h : env.names.Nodup) (loader : Loader)
    (encoding : Text) (locations : List Text) :
    (env.applyLocations loader encoding locations).environment.Apart := by
  rcases env.applyLocations_cases loader encoding locations with ⟨sources, hs⟩ | hs
  · rw [hs]
    exact addAllHighest sources ha h
  · rwa [hs]

theorem Apart.applyMerged (ha : env.Apart) (h : env.names.Nodup) (loader : Loader)
    (encoding : Text) (merged : MergedSources) :
    (env.applyMerged loader encoding merged).environment.Apart := by
  have hlocated := ha.applyLocations h loader encoding merged.locations
  unfold SharedEnvironment.applyMerged
  dsimp only
  split
  · exact hlocated
  · exact hlocated.applyInlined (keeps_applyLocations loader encoding h merged.locations).distinct _

/-- No mapping comes to be shared by an operation that does not share one. -/
theorem Apart.performOwn (ha : env.Apart) (h : env.names.Nodup) (operation : Operation) :
    (env.performOwn operation).Apart := by
  have readd : ∀ {name : Text} {f : Holder → SharedEnvironment},
      (∀ held ∈ env.holders, (f held).Apart) → (((env.get? name).map f).getD env).Apart := by
    intro name f hf
    rcases hg : env.get? name with _ | held
    · exact ha
    · exact hf held (mem_of_get? hg).1
  have hplace : ∀ held ∈ env.holders, ∀ other ∈ env.holders, other.place = held.place →
      other.name = held.name :=
    fun held hh other ho hp => congrArg Holder.name (ha.eq_of_place hh ho hp)
  cases operation with
  | addHighest source => exact ha.addOwnHighest h source
  | addLowest source => exact ha.addOwnLowest h source
  | readdHighest name => exact readd fun held hh => ha.addHighest h (hplace held hh)
  | readdLowest name => exact readd fun held hh => ha.addLowest h (hplace held hh)
  | remove name => exact ha.remove h name
  | write name change => exact ha.modify name change
  | applyLocations loader encoding locations => exact ha.applyLocations h loader encoding locations
  | applyInlined entries => exact ha.applyInlined h entries
  | applyMerged loader encoding merged => exact ha.applyMerged h loader encoding merged

theorem holders_modify (env : SharedEnvironment) (name : Text)
    (change : PropertyMap → PropertyMap) : (env.modify name change).holders = env.holders := by
  unfold modify
  split <;> rfl

/-- To write into a source that shares its mapping with none is to change that source. -/
theorem Apart.source_modify (ha : env.Apart) (h : env.names.Nodup) (name : Text)
    (change : PropertyMap → PropertyMap) (hh : holder ∈ env.holders) :
    (env.modify name change).source holder =
      if holder.name = name then ⟨holder.name, change (env.mappings holder.place)⟩
      else env.source holder := by
  rcases hg : env.get? name with _ | held
  · have hne : holder.name ≠ name := by simpa using List.find?_eq_none.mp hg holder hh
    rw [if_neg hne]
    simp only [SharedEnvironment.modify, hg]
  · obtain ⟨hheld, hname⟩ := mem_of_get? hg
    simp only [SharedEnvironment.modify, hg]
    by_cases hn : holder.name = name
    · have heq : holder = held := List.inj_on_of_nodup_map h hh hheld (hn.trans hname.symm)
      rw [if_pos hn, heq]
      simp [source, writeAt]
    · rw [if_neg hn]
      refine source_writeAt_of_ne (fun hp => hn ?_) _
      rw [ha.eq_of_place hheld hh hp, hname]

theorem Apart.environment_modify (ha : env.Apart) (h : env.names.Nodup) (name : Text)
    (change : PropertyMap → PropertyMap) :
    (env.modify name change).environment = env.environment.modify name change := by
  have hn : env.environment.names.Nodup := names_environment env ▸ h
  have hsources : (env.modify name change).environment.sources =
      (env.environment.modify name change).sources := by
    rw [Environment.sources_modify_of_nodup hn, environment, environment, List.map_map,
      holders_modify]
    exact List.map_congr_left fun holder hh => ha.source_modify h name change hh
  have hlenient : (env.modify name change).lenient = env.lenient := by
    unfold SharedEnvironment.modify
    split <;> rfl
  exact congrArg₂ Environment.mk hsources hlenient

theorem Apart.environment_overlayInlined (ha : env.Apart) (h : env.names.Nodup)
    (properties : PropertyMap) :
    (env.overlayInlined properties).environment = env.environment.overlayInlined properties := by
  unfold SharedEnvironment.overlayInlined Environment.overlayInlined
  rw [get?_environment]
  rcases env.get? Environment.inlinedName with _ | held
  · exact environment_addOwnHighest env _
  · exact ha.environment_modify h _ _

theorem Apart.applied_applyInlined (ha : env.Apart) (h : env.names.Nodup) (entries : List Text) :
    (env.applyInlined entries).applied = env.environment.applyInlined entries := by
  unfold SharedEnvironment.applyInlined Environment.applyInlined
  split
  · rfl
  · rcases Properties.readEntries entries with malformed | properties
    · rfl
    · simp only [SharedApplied.applied, ha.environment_overlayInlined h]

theorem Apart.applied_applyMerged (ha : env.Apart) (h : env.names.Nodup) (loader : Loader)
    (encoding : Text) (merged : MergedSources) :
    (env.applyMerged loader encoding merged).applied =
      env.environment.applyMerged loader encoding merged := by
  have hlocated := applied_applyLocations env loader encoding merged.locations
  have hapart := ha.applyLocations h loader encoding merged.locations
  have hnames := (keeps_applyLocations loader encoding h merged.locations).distinct
  unfold SharedEnvironment.applyMerged Environment.applyMerged
  rw [← hlocated]
  rcases hf : (env.applyLocations loader encoding merged.locations).failure? with _ | failure
  · have hthen := hapart.applied_applyInlined hnames merged.properties
    simp only [SharedApplied.applied, hf] at hthen ⊢
    rw [← hthen]
  · simp only [SharedApplied.applied, hf]

/-- Where no mapping is shared an operation does what it does to sources that have their properties
to themselves. -/
theorem Apart.environment_performOwn (ha : env.Apart) (h : env.names.Nodup)
    (operation : Operation) :
    (env.performOwn operation).environment = env.environment.perform operation := by
  cases operation with
  | addHighest source => exact environment_addOwnHighest env source
  | addLowest source => exact environment_addOwnLowest env source
  | readdHighest name =>
    simp only [SharedEnvironment.performOwn, Environment.perform, get?_environment]
    rcases env.get? name with _ | held
    · rfl
    · exact environment_addHighest env held
  | readdLowest name =>
    simp only [SharedEnvironment.performOwn, Environment.perform, get?_environment]
    rcases env.get? name with _ | held
    · rfl
    · exact environment_addLowest env held
  | remove name => exact environment_remove env name
  | write name change => exact ha.environment_modify h name change
  | applyLocations loader encoding locations =>
    exact congrArg Applied.environment (applied_applyLocations env loader encoding locations)
  | applyInlined entries => exact congrArg Applied.environment (ha.applied_applyInlined h entries)
  | applyMerged loader encoding merged =>
    exact congrArg Applied.environment (ha.applied_applyMerged h loader encoding merged)

theorem environment_performAll :
    ∀ (operations : List Operation) {env : SharedEnvironment}, env.names.Nodup → env.Apart →
      (env.performAll (operations.map .own)).environment = env.environment.performAll operations
  | [], _, _, _ => rfl
  | operation :: rest, env, h, ha => by
    have hnext := (keeps_perform h (.own operation)).distinct
    have hrest := environment_performAll rest hnext (ha.performOwn h operation)
    exact hrest.trans
      (congrArg (Environment.performAll · rest) (ha.environment_performOwn h operation))

theorem Apart.not_mem_placesOf (ha : env.Apart) (hh : holder ∈ env.holders)
    (hn : holder.name ≠ name) : holder.place ∉ env.placesOf name := by
  rw [mem_placesOf]
  rintro ⟨held, hg, hp⟩
  obtain ⟨hheld, hname⟩ := mem_of_get? hg
  rw [ha.eq_of_place hh hheld hp] at hname
  exact hn hname

/-- Where no mapping is shared an operation writes into none of the sources that it does not name. -/
theorem Apart.not_mem_written (ha : env.Apart) (h : env.names.Nodup) (operation : SharedOperation)
    (hh : holder ∈ env.others (env.named operation)) : holder.place ∉ env.written operation := by
  obtain ⟨hheld, hname⟩ := mem_others.mp hh
  cases operation with
  | shareHighest | shareLowest => exact List.not_mem_nil
  | own operation =>
    cases operation with
    | addHighest | addLowest | readdHighest | readdLowest | remove | applyLocations =>
      exact List.not_mem_nil
    | write | applyInlined => exact ha.not_mem_placesOf hheld (List.ne_of_not_mem_cons hname)
    | applyMerged loader encoding merged =>
      have hasked := List.not_mem_of_not_mem_cons hname
      rw [asked_applyLocations] at hasked
      -- The write is into what the locations leave, and there the source still stands.
      have hlocated := (keeps_applyLocations loader encoding h merged.locations).others
      have hthere := mem_others.mp (hlocated ▸ mem_others.mpr ⟨hheld, hasked⟩)
      exact (ha.applyLocations h loader encoding merged.locations).not_mem_placesOf hthere.1
        (List.ne_of_not_mem_cons hname)

/-- What holds of an environment however its sources share mappings. -/
structure Distinct (env : SharedEnvironment) : Prop where
  names : env.names.Nodup
  /-- The source that is held under a name is the one that is removed, and no other has the name. -/
  removed : ∀ name holder, env.get? name = some holder →
    ∃ upper lower, env.holders = upper ++ holder :: lower
      ∧ env.remove name = { env with holders := upper ++ lower }
      ∧ name ∉ (env.remove name).names
  absent : ∀ name, env.get? name = none → env.remove name = env
  /-- The sources that an operation does not name keep their order and their mappings. -/
  others : ∀ operation,
    (env.perform operation).others (env.named operation) = env.others (env.named operation)
  /-- They keep their properties as well, unless the operation writes to the place of one. -/
  contents : ∀ operation, ∀ holder ∈ env.others (env.named operation),
    holder.place ∉ env.written operation → (env.perform operation).source holder = env.source holder
  /-- What is written into a source is written into each that shares its mapping. -/
  shared : ∀ name change holder, env.get? name = some holder →
    ∀ other : Holder, other.place = holder.place →
      (env.perform (.own (.write name change))).source other =
        ⟨other.name, change (env.mappings holder.place)⟩
  /-- Where no two sources share a mapping, all that are not named keep their properties. -/
  apart : env.Apart → ∀ operation,
    Environment.KeepsOthers (env.named operation) env.environment
      (env.perform operation).environment

theorem distinct_of_nodup (h : env.names.Nodup) : env.Distinct where
  names := h
  removed name holder hg := by
    obtain ⟨upper, lower, hholders, -, hremove⟩ := holders_remove_of_get? hg
    exact ⟨upper, lower, hholders, hremove, not_mem_names_remove h name⟩
  absent _ := remove_of_get?_eq_none
  others operation := (keeps_perform h operation).others
  contents operation := (keeps_perform h operation).contents
  shared name change holder hg other hp := by
    simp [perform, performOwn, modify, hg, source, writeAt, hp]
  apart ha operation := by
    have hkeeps := keeps_perform h operation
    rw [Environment.KeepsOthers, ← map_source_others, ← map_source_others, hkeeps.others]
    exact List.map_congr_left fun holder hh =>
      hkeeps.contents holder hh (ha.not_mem_written h operation hh)

theorem Apart.performAll :
    ∀ (operations : List SharedOperation) {env : SharedEnvironment}, env.names.Nodup → env.Apart →
      (∀ operation ∈ operations, operation.isOwn) → (env.performAll operations).Apart
  | [], _, _, ha, _ => ha
  | operation :: rest, env, h, ha, hown => by
    have hstep : (env.perform operation).Apart := by
      cases operation with
      | own operation => exact ha.performOwn h operation
      | shareHighest | shareLowest => cases hown _ List.mem_cons_self
    exact performAll rest (keeps_perform h operation).distinct hstep
      fun other ho => hown other (List.mem_cons_of_mem _ ho)

/-- However mappings are shared, names are distinct in every state that operations lead to, and an
operation leaves alone what it does not name, but for what is written to the place of another. No
mapping comes to be shared unless one was shared before or an operation shares one. -/
theorem distinct_performAll {holders : List Holder} {mappings : Nat → PropertyMap} {lenient : Bool}
    (h : ofHolders holders mappings lenient = .ok env) (operations : List SharedOperation) :
    (env.performAll operations).Distinct
      ∧ (env.Apart → (∀ operation ∈ operations, operation.isOwn) →
        (env.performAll operations).Apart) := by
  obtain ⟨hstart, rfl⟩ := ofHolders_eq_ok_iff.mp h
  exact ⟨distinct_of_nodup (nodup_names_performAll operations hstart),
    Apart.performAll operations hstart⟩

/-- Two sources that are made with one mapping, and one that is not. -/
def sharedPair : SharedEnvironment where
  holders := [⟨"base", 0⟩, ⟨"copy", 0⟩, ⟨"x", 1⟩]
  mappings place := if place = 0 then .ofPairs [("k", "x")] else .ofPairs [("k", "1")]
  lenient := false

/-- The second application fails at its last entry, with a location added. -/
def eightOperations : List SharedOperation :=
  [.own (.applyInlined ["k=2"]),
    .own (.applyMerged Environment.oneResource "utf-8" ⟨["x"], ["k=3", "k"]⟩),
    .shareLowest "twin" "x", .own (.readdHighest "copy"), .own (.write "copy" (·.insert "j" "4")),
    .own (.remove "x"), .own (.addLowest ⟨"base", ∅⟩),
    .own (.applyLocations Environment.oneResource "utf-8" ["x", "y"])]

theorem distinct_performAll_eightOperations :
    ofHolders sharedPair.holders sharedPair.mappings false = .ok sharedPair
      ∧ (sharedPair.performAll eightOperations).Distinct := by
  have h : ofHolders sharedPair.holders sharedPair.mappings false = .ok sharedPair := rfl
  exact ⟨h, (distinct_performAll h eightOperations).1⟩

/-- A write into one of two sources with one mapping changes the other. And where a location comes to
the name of a source, that source is replaced although none of the given texts is its name. -/
theorem not_keepsOthers_sharedPair :
    let locations : List Text := ["$\x7bk\x7d"]
    ofHolders sharedPair.holders sharedPair.mappings false = .ok sharedPair
      ∧ ¬ Environment.KeepsOthers ["base"] sharedPair.environment
        (sharedPair.perform (.own (.write "base" (·.insert "k" "2")))).environment
      ∧ ¬ Environment.KeepsOthers locations sharedPair.environment
        (sharedPair.perform
          (.own (.applyLocations Environment.oneResource "utf-8" locations))).environment := by
  refine ⟨rfl, ?_, ?_⟩
  · rw [Environment.KeepsOthers]
    decide
  · rw [Environment.KeepsOthers]
    cbv
    decide

end PropertyLayers.SharedEnvironment
