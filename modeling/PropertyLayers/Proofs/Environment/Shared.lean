import Mathlib.Data.List.MinMax
import PropertyLayers.Environment.Shared
import PropertyLayers.Proofs.Environment.Run

/-!
# Operations where mappings are shared

Sources can have one mapping from the start, and a source can be added with the mapping of another.
However that is, an operation leaves names distinct, and the sources that it does not name it leaves
in their order and at their places. Their properties change only where it writes into a mapping
that is also the mapping of a source it is about (`keeps_perform`).
-/

namespace PropertyLayers

/-- An operation by which no mapping comes to be shared, or one that adds a source with the mapping of
the source held under another name. -/
inductive SharedOperation where
  | own (operation : Operation)
  | shareHighest (name other : Text)
  | shareLowest (name other : Text)

def SharedOperation.isOwn : SharedOperation → Bool
  | .own _ => true
  | .shareHighest _ _ => false
  | .shareLowest _ _ => false

namespace SharedEnvironment

def performOwn (env : SharedEnvironment) : Operation → SharedEnvironment
  | .addHighest source => env.addOwnHighest source
  | .addLowest source => env.addOwnLowest source
  | .readdHighest name => ((env.get? name).map env.addHighest).getD env
  | .readdLowest name => ((env.get? name).map env.addLowest).getD env
  | .remove name => env.remove name
  | .write name change => env.modify name change
  | .applyLocations loader encoding locations =>
    (env.applyLocations loader encoding locations).environment
  | .applyInlined entries => (env.applyInlined entries).environment
  | .applyMerged loader encoding merged => (env.applyMerged loader encoding merged).environment

def perform (env : SharedEnvironment) : SharedOperation → SharedEnvironment
  | .own operation => env.performOwn operation
  | .shareHighest name other =>
    ((env.get? other).map fun holder => env.addHighest ⟨name, holder.place⟩).getD env
  | .shareLowest name other =>
    ((env.get? other).map fun holder => env.addLowest ⟨name, holder.place⟩).getD env

def performAll (env : SharedEnvironment) (operations : List SharedOperation) : SharedEnvironment :=
  operations.foldl perform env

def named (env : SharedEnvironment) : SharedOperation → List Text
  | .own operation => env.environment.named operation
  | .shareHighest name _ => [name]
  | .shareLowest name _ => [name]

def placesOf (env : SharedEnvironment) (name : Text) : List Nat :=
  ((env.get? name).map Holder.place).toList

/-- The places at which the operation writes into a source that is there already. -/
def written (env : SharedEnvironment) : SharedOperation → List Nat
  | .own (.write name _) => env.placesOf name
  | .own (.applyInlined _) => env.placesOf Environment.inlinedName
  | .own (.applyMerged loader encoding merged) =>
    (env.applyLocations loader encoding merged.locations).environment.placesOf
      Environment.inlinedName
  | _ => []

/-- The sources of other names than these, each with its place. -/
def others (env : SharedEnvironment) (names : List Text) : List Holder :=
  env.holders.filter fun h => !names.contains h.name

variable {env mid after : SharedEnvironment} {name : Text} {holder : Holder}

section Read

theorem names_environment (env : SharedEnvironment) : env.environment.names = env.names := by
  simp [environment, Environment.names, names, source]

theorem get?_environment (env : SharedEnvironment) (name : Text) :
    env.environment.get? name = (env.get? name).map env.source := by
  rw [environment, Environment.get?, List.find?_map]
  rfl

theorem map_source_others (env : SharedEnvironment) (names : List Text) :
    (env.others names).map env.source = othersThan names env.environment.sources := by
  rw [othersThan, environment, List.filter_map]
  rfl

theorem mem_of_get? (h : env.get? name = some holder) :
    holder ∈ env.holders ∧ holder.name = name :=
  ⟨List.mem_of_find?_eq_some h, by simpa using List.find?_some h⟩

theorem mem_placesOf {place : Nat} :
    place ∈ env.placesOf name ↔ ∃ holder, env.get? name = some holder ∧ holder.place = place := by
  simp [placesOf]

theorem lt_fresh (h : holder ∈ env.holders) : holder.place < env.fresh :=
  Nat.lt_succ_of_le (List.le_max_of_le' 0 (List.mem_map.mpr ⟨holder, h, rfl⟩) le_rfl)

theorem environment_remove (env : SharedEnvironment) (name : Text) :
    (env.remove name).environment = env.environment.remove name := by
  unfold remove Environment.remove
  rw [get?_environment]
  rcases env.get? name with _ | holder
  · rfl
  · simp only [environment, Option.map_some, List.erase_eq_eraseP', List.eraseP_map]
    congr 2

theorem source_remove (env : SharedEnvironment) (name : Text) :
    (env.remove name).source = env.source := by
  unfold remove
  split <;> rfl

theorem environment_addHighest (env : SharedEnvironment) (holder : Holder) :
    (env.addHighest holder).environment = env.environment.addHighest (env.source holder) := by
  have hname : (env.source holder).name = holder.name := rfl
  rw [Environment.addHighest, hname, ← environment_remove, ← source_remove env holder.name]
  rfl

theorem environment_addLowest (env : SharedEnvironment) (holder : Holder) :
    (env.addLowest holder).environment = env.environment.addLowest (env.source holder) := by
  have hname : (env.source holder).name = holder.name := rfl
  rw [Environment.addLowest, hname, ← environment_remove, ← source_remove env holder.name,
    addLowest, environment, List.map_append]
  rfl

theorem source_writeAt_of_ne {place : Nat} (h : holder.place ≠ place) (properties : PropertyMap) :
    (env.writeAt place properties).source holder = env.source holder := by
  simp [source, writeAt, h]

/-- What is put at a new place cannot be read of the sources that are there. -/
theorem environment_writeAt_fresh (env : SharedEnvironment) (properties : PropertyMap) :
    (env.writeAt env.fresh properties).environment = env.environment := by
  have hmap : env.holders.map (env.writeAt env.fresh properties).source =
      env.holders.map env.source :=
    List.map_congr_left fun _ h => source_writeAt_of_ne (Nat.ne_of_lt (lt_fresh h)) properties
  exact congrArg (Environment.mk · env.lenient) hmap

theorem source_writeAt_fresh (env : SharedEnvironment) (source : Source) :
    (env.writeAt env.fresh source.properties).source ⟨source.name, env.fresh⟩ = source := by
  simp [SharedEnvironment.source, writeAt]

theorem environment_addOwnHighest (env : SharedEnvironment) (source : Source) :
    (env.addOwnHighest source).environment = env.environment.addHighest source := by
  rw [addOwnHighest, environment_addHighest, environment_writeAt_fresh, source_writeAt_fresh]

theorem environment_addOwnLowest (env : SharedEnvironment) (source : Source) :
    (env.addOwnLowest source).environment = env.environment.addLowest source := by
  rw [addOwnLowest, environment_addLowest, environment_writeAt_fresh, source_writeAt_fresh]

theorem environment_addAllHighest :
    ∀ (sources : List Source) (env : SharedEnvironment),
      (env.addAllHighest sources).environment = env.environment.addAllHighest sources
  | [], _ => rfl
  | source :: rest, env => by
    rw [addAllHighest, List.foldl_cons, ← addAllHighest, environment_addAllHighest rest,
      environment_addOwnHighest]
    rfl

end Read

theorem ofHolders_eq_ok_iff {holders : List Holder} {mappings : Nat → PropertyMap}
    {lenient : Bool} :
    ofHolders holders mappings lenient = .ok env ↔
      (holders.map Holder.name).Nodup ∧ env = ⟨holders, mappings, lenient⟩ := by
  have hnames := names_environment ⟨holders, mappings, lenient⟩
  have hnames : (environment ⟨holders, mappings, lenient⟩).names = holders.map Holder.name := hnames
  rw [ofHolders]
  rcases ho : Environment.ofSources (environment ⟨holders, mappings, lenient⟩).sources lenient
    with fault | made
  · refine iff_of_false (fun h => by cases h) fun ⟨hn, _⟩ => ?_
    rw [← hnames] at hn
    rw [Environment.ofSources_eq_ok_iff.mpr ⟨hn, rfl⟩] at ho
    cases ho
  · obtain ⟨hn, -⟩ := Environment.ofSources_eq_ok_iff.mp ho
    rw [← hnames]
    refine ⟨fun h => ⟨hn, ?_⟩, ?_⟩
    · cases h
      rfl
    · rintro ⟨-, rfl⟩
      rfl

/-- What is removed under a name is the source held under it. -/
theorem holders_remove_of_get? (h : env.get? name = some holder) :
    ∃ upper lower, env.holders = upper ++ holder :: lower ∧ (∀ other ∈ upper, other.name ≠ name)
      ∧ env.remove name = { env with holders := upper ++ lower } := by
  obtain ⟨hname, upper, lower, hholders, hupper⟩ := List.find?_eq_some_iff_append.mp h
  have hname : holder.name = name := by simpa using hname
  have hupper : ∀ other ∈ upper, other.name ≠ name := by simpa using hupper
  refine ⟨upper, lower, hholders, hupper, ?_⟩
  have hdiffer : ∀ other ∈ upper, ¬ (decide (env.source other = env.source holder)) := by
    intro other ho heq
    have heq : other.name = holder.name := congrArg Source.name (of_decide_eq_true heq)
    exact hupper other ho (heq.trans hname)
  simp only [remove, h]
  rw [hholders, List.eraseP_append_right _ hdiffer, List.eraseP_cons_of_pos (by simp)]

theorem remove_of_get?_eq_none (h : env.get? name = none) : env.remove name = env := by
  simp only [remove, h]

theorem holders_remove (h : env.names.Nodup) (name : Text) :
    (env.remove name).holders = env.holders.filter fun other => other.name ≠ name := by
  rw [← eraseP_eq_filter_of_nodup h]
  rcases hg : env.get? name with _ | holder
  · rw [remove_of_get?_eq_none hg, List.eraseP_of_forall_not]
    exact fun other ho => List.find?_eq_none.mp hg other ho
  · obtain ⟨upper, lower, hholders, hupper, hremove⟩ := holders_remove_of_get? hg
    have hname := (mem_of_get? hg).2
    rw [hremove, hholders, List.eraseP_append_right _ (by simpa using hupper),
      List.eraseP_cons_of_pos (by simpa using hname)]

/-- A step to distinct names that is about these names alone, and that writes to no other places. -/
structure Keeps (names : List Text) (written : List Nat) (env after : SharedEnvironment) : Prop where
  distinct : after.names.Nodup
  others : after.others names = env.others names
  contents : ∀ holder ∈ env.others names, holder.place ∉ written →
    after.source holder = env.source holder

variable {names : List Text} {written : List Nat}

theorem keeps_refl (h : env.names.Nodup) (names : List Text) (written : List Nat) :
    Keeps names written env env :=
  ⟨h, rfl, fun _ _ _ => rfl⟩

theorem Keeps.trans (h : Keeps names written env mid) (h' : Keeps names written mid after) :
    Keeps names written env after := by
  refine ⟨h'.distinct, h'.others.trans h.others, fun holder hh hw => ?_⟩
  rw [h'.contents holder (h.others ▸ hh) hw, h.contents holder hh hw]

theorem others_others_of_subset {more : List Text} (hs : names ⊆ more)
    (h : after.others names = env.others names) : after.others more = env.others more := by
  have hmore (env : SharedEnvironment) :
      env.others more = (env.others names).filter fun h => !more.contains h.name := by
    rw [others, others, List.filter_filter]
    refine List.filter_congr fun holder _ => Bool.eq_iff_iff.mpr ?_
    simpa using fun hm hn => hm (hs hn)
  rw [hmore, h, ← hmore]

theorem mem_others : holder ∈ env.others names ↔ holder ∈ env.holders ∧ holder.name ∉ names := by
  simp [others]

theorem Keeps.mono {more : List Text} {places : List Nat} (h : Keeps names written env after)
    (hs : names ⊆ more) (hw : written ⊆ places) : Keeps more places env after := by
  refine ⟨h.distinct, others_others_of_subset hs h.others, fun holder hh hplace => ?_⟩
  obtain ⟨hheld, hname⟩ := mem_others.mp hh
  exact h.contents holder (mem_others.mpr ⟨hheld, mt (@hs _) hname⟩) (mt (@hw _) hplace)

theorem keeps_remove (h : env.names.Nodup) (name : Text) : Keeps [name] [] env (env.remove name) := by
  refine ⟨?_, ?_, fun holder _ _ => by rw [source_remove]⟩
  · rw [names, holders_remove h]
    exact h.sublist (List.filter_sublist.map Holder.name)
  · rw [others, holders_remove h, List.filter_filter, others]
    exact List.filter_congr fun other _ => by simp

theorem not_mem_names_remove (h : env.names.Nodup) (name : Text) :
    name ∉ (env.remove name).names := by
  rw [names, holders_remove h]
  simp

theorem keeps_addHighest (h : env.names.Nodup) (holder : Holder) :
    Keeps [holder.name] [] env (env.addHighest holder) := by
  have hremove := keeps_remove h holder.name
  refine ⟨List.nodup_cons.mpr ⟨not_mem_names_remove h holder.name, hremove.distinct⟩, ?_,
    hremove.contents⟩
  exact (List.filter_cons_of_neg (by simp)).trans hremove.others

theorem keeps_addLowest (h : env.names.Nodup) (holder : Holder) :
    Keeps [holder.name] [] env (env.addLowest holder) := by
  have hremove := keeps_remove h holder.name
  refine ⟨?_, ?_, hremove.contents⟩
  · rw [names, addLowest, List.map_append]
    refine List.nodup_append.mpr ⟨hremove.distinct, by simp, fun a ha b hb hab => ?_⟩
    have hb : b = holder.name := by simpa using hb
    rw [hab, hb] at ha
    exact not_mem_names_remove h holder.name ha
  · rw [others, addLowest, List.filter_append, List.filter_cons_of_neg (by simp), List.filter_nil,
      List.append_nil]
    exact hremove.others

theorem keeps_writeAt (h : env.names.Nodup) (names : List Text) (place : Nat)
    (properties : PropertyMap) : Keeps names [place] env (env.writeAt place properties) := by
  refine ⟨h, rfl, fun holder _ hplace => ?_⟩
  exact source_writeAt_of_ne (by simpa using hplace) properties

/-- At a new place there is nothing to overwrite. -/
theorem keeps_writeAt_fresh (h : env.names.Nodup) (names : List Text) (properties : PropertyMap) :
    Keeps names [] env (env.writeAt env.fresh properties) := by
  refine ⟨h, rfl, fun holder hh _ => ?_⟩
  exact source_writeAt_of_ne (Nat.ne_of_lt (lt_fresh (mem_others.mp hh).1)) properties

theorem keeps_addOwnHighest (h : env.names.Nodup) (source : Source) :
    Keeps [source.name] [] env (env.addOwnHighest source) :=
  have hwrite := keeps_writeAt_fresh h [source.name] source.properties
  hwrite.trans (keeps_addHighest hwrite.distinct ⟨source.name, env.fresh⟩)

theorem keeps_addOwnLowest (h : env.names.Nodup) (source : Source) :
    Keeps [source.name] [] env (env.addOwnLowest source) :=
  have hwrite := keeps_writeAt_fresh h [source.name] source.properties
  hwrite.trans (keeps_addLowest hwrite.distinct ⟨source.name, env.fresh⟩)

theorem keeps_modify (h : env.names.Nodup) (name : Text) (change : PropertyMap → PropertyMap) :
    Keeps [name] (env.placesOf name) env (env.modify name change) := by
  rcases hg : env.get? name with _ | holder
  · simp only [modify, hg]
    exact keeps_refl h _ _
  · simp only [modify, placesOf, hg]
    exact keeps_writeAt h [name] holder.place _

theorem keeps_addAllHighest :
    ∀ (sources : List Source) {env : SharedEnvironment}, env.names.Nodup →
      Keeps (sources.map Source.name) [] env (env.addAllHighest sources)
  | [], _, h => keeps_refl h [] []
  | source :: rest, _, h => by
    have first := keeps_addOwnHighest h source
    have later := keeps_addAllHighest rest first.distinct
    exact (first.mono (by simp) (by simp)).trans (later.mono (by simp) (by simp))

section Applications

variable (loader : Loader) (encoding : Text)

/-- Either the locations load, and the sources are added, or nothing changes. -/
theorem applyLocations_cases (env : SharedEnvironment) (locations : List Text) :
    (∃ sources : List Source, env.applyLocations loader encoding locations =
        ⟨env.addAllHighest sources, sources.map Source.name, none⟩)
      ∨ (env.applyLocations loader encoding locations).environment = env := by
  rcases hs : (env.environment.stage loader encoding [] locations).outcome with failure | all
  · exact .inr (by simp only [applyLocations, hs])
  · obtain ⟨sources, hl, -⟩ := Environment.stage_eq_ok_iff.mp hs
    exact .inl ⟨sources, by simp [applyLocations, hl.stage_eq]⟩

theorem keeps_applyLocations (h : env.names.Nodup) (locations : List Text) :
    Keeps (env.applyLocations loader encoding locations).asked [] env
      (env.applyLocations loader encoding locations).environment := by
  rcases env.applyLocations_cases loader encoding locations with ⟨sources, hs⟩ | hs
  · rw [hs]
    exact keeps_addAllHighest sources h
  · rw [hs]
    exact keeps_refl h _ _

theorem keeps_overlayInlined (h : env.names.Nodup) (properties : PropertyMap) :
    Keeps [Environment.inlinedName] (env.placesOf Environment.inlinedName) env
      (env.overlayInlined properties) := by
  unfold overlayInlined
  split
  · exact (keeps_addOwnHighest h _).mono (List.Subset.refl _) (List.nil_subset _)
  · exact keeps_modify h _ _

theorem keeps_applyInlined (h : env.names.Nodup) (entries : List Text) :
    Keeps [Environment.inlinedName] (env.placesOf Environment.inlinedName) env
      (env.applyInlined entries).environment := by
  unfold applyInlined
  split
  · exact keeps_refl h _ _
  · split
    · exact keeps_overlayInlined h _
    · exact keeps_refl h _ _

theorem keeps_applyMerged (h : env.names.Nodup) (merged : MergedSources) :
    Keeps (Environment.inlinedName :: (env.applyLocations loader encoding merged.locations).asked)
      ((env.applyLocations loader encoding merged.locations).environment.placesOf
        Environment.inlinedName)
      env (env.applyMerged loader encoding merged).environment := by
  have hlocated := keeps_applyLocations loader encoding h merged.locations
  have hfirst := hlocated.mono (List.subset_cons_self Environment.inlinedName _)
    (List.nil_subset (placesOf (env.applyLocations loader encoding merged.locations).environment
      Environment.inlinedName))
  have hthen := keeps_applyInlined hlocated.distinct merged.properties
  unfold applyMerged
  dsimp only
  split
  · exact hfirst
  · exact hfirst.trans (hthen.mono (by simp) (List.Subset.refl _))

end Applications

section Read

theorem applied_applyLocations (env : SharedEnvironment) (loader : Loader) (encoding : Text)
    (locations : List Text) :
    (env.applyLocations loader encoding locations).applied =
      env.environment.applyLocations loader encoding locations := by
  unfold applyLocations Environment.applyLocations
  rcases hs : (env.environment.stage loader encoding [] locations).outcome with failure | sources
  · simp only [SharedApplied.applied, hs]
  · simp only [SharedApplied.applied, hs, environment_addAllHighest]

theorem asked_applyLocations (env : SharedEnvironment) (loader : Loader) (encoding : Text)
    (locations : List Text) :
    (env.environment.applyLocations loader encoding locations).asked =
      (env.applyLocations loader encoding locations).asked := by
  rw [← applied_applyLocations]
  rfl

end Read

/-- An operation leaves names distinct, and leaves alone what it neither names nor writes to. -/
theorem keeps_perform (h : env.names.Nodup) (operation : SharedOperation) :
    Keeps (env.named operation) (env.written operation) env (env.perform operation) := by
  have add : ∀ {name other : Text} {written : List Nat} {f : Holder → SharedEnvironment},
      (∀ held, env.get? other = some held → Keeps [name] [] env (f held)) →
        Keeps [name] written env (((env.get? other).map f).getD env) := by
    intro name other written f hf
    rcases hg : env.get? other with _ | held
    · exact keeps_refl h _ _
    · exact (hf held hg).mono (List.Subset.refl _) (List.nil_subset _)
  cases operation with
  | shareHighest name other => exact add fun held _ => keeps_addHighest h ⟨name, held.place⟩
  | shareLowest name other => exact add fun held _ => keeps_addLowest h ⟨name, held.place⟩
  | own operation =>
    cases operation with
    | addHighest source => exact keeps_addOwnHighest h source
    | addLowest source => exact keeps_addOwnLowest h source
    | readdHighest name => exact add fun held hg => (mem_of_get? hg).2 ▸ keeps_addHighest h held
    | readdLowest name => exact add fun held hg => (mem_of_get? hg).2 ▸ keeps_addLowest h held
    | remove name => exact keeps_remove h name
    | write name change => exact keeps_modify h name change
    | applyLocations loader encoding locations =>
      have hkeeps := keeps_applyLocations loader encoding h locations
      rwa [← asked_applyLocations] at hkeeps
    | applyInlined entries => exact keeps_applyInlined h entries
    | applyMerged loader encoding merged =>
      have hkeeps := keeps_applyMerged loader encoding h merged
      rwa [← asked_applyLocations] at hkeeps

theorem nodup_names_performAll :
    ∀ (operations : List SharedOperation) {env : SharedEnvironment}, env.names.Nodup →
      (env.performAll operations).names.Nodup
  | [], _, h => h
  | operation :: rest, _, h => nodup_names_performAll rest (keeps_perform h operation).distinct

end SharedEnvironment

end PropertyLayers
