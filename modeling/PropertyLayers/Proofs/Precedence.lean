import Mathlib
import PropertyLayers.Proofs.Declaration.Order
import PropertyLayers.Proofs.Environment.Inlined
import PropertyLayers.Proofs.Properties.Inline

/-!
# The precedence of what is declared

The value of a key in a fresh environment, after all that is declared has been applied to it, is
that of the last inline entry that gives one, or else that of the last location whose resource does
(`rawProperty?_applyMerged_empty`). In terms of the declarations it is the value of the one entry or
location that wins over all others that give the key a value (`precedence_of_applyMerged`).
-/

namespace PropertyLayers

/-- From where a value is given: an inline entry, or the resource at a location. -/
inductive Standing where
  | inlined (rank : Rank)
  | located (rank : Rank)

/-- Any inline entry wins over any location. -/
def Standing.Beats : Standing → Standing → Prop
  | .inlined a, .inlined b => a.Beats b
  | .inlined _, .located _ => True
  | .located _, .inlined _ => False
  | .located a, .located b => a.Beats b

theorem Standing.Beats.asymm {a b : Standing} (h : a.Beats b) : ¬ b.Beats a := by
  cases a <;> cases b
  · exact Rank.Beats.asymm h
  · exact id
  · exact h.elim
  · exact Rank.Beats.asymm h

/-- The value that a key is given from somewhere, where the located sources are known. -/
inductive Gives (declarations : List Declaration) (located : List ((Rank × Text) × Source)) :
    Standing → Text → Text → Prop
  | inlined {rank : Rank} {entry key value : Text} :
      PropertyAt declarations rank entry → Properties.valueIn? key entry = some value →
      Gives declarations located (.inlined rank) key value
  | located {rank : Rank} {location key value : Text} {source : Source} :
      ((rank, location), source) ∈ located → source.properties.get? key = some value →
      Gives declarations located (.located rank) key value

/-- Where everything beats what comes after it, the first value is that of the winner. -/
theorem findSome?_eq_some_iff_of_beats {value : Text} :
    ∀ {candidates : List (Standing × Option Text)},
      (candidates.Pairwise fun a b => a.1.Beats b.1) →
        (candidates.findSome? Prod.snd = some value ↔
          ∃ winner, (winner, some value) ∈ candidates
            ∧ ∀ other v, (other, some v) ∈ candidates → other = winner ∨ winner.Beats other)
  | [], _ => by simp
  | (first, none) :: rest, h => by
    have ih : _ ↔ ∃ winner, (winner, some value) ∈ rest ∧ _ :=
      findSome?_eq_some_iff_of_beats (List.pairwise_cons.mp h).2
    simpa using ih
  | (first, some v) :: rest, h => by
    obtain ⟨hfirst, hrest⟩ := List.pairwise_cons.mp h
    rw [List.findSome?_cons]
    constructor
    · intro he
      cases he
      refine ⟨first, List.mem_cons_self, fun other w ho => ?_⟩
      rcases List.mem_cons.mp ho with ho | ho
      · cases ho
        exact .inl rfl
      · exact .inr (hfirst _ ho)
    · rintro ⟨winner, hw, hall⟩
      rcases List.mem_cons.mp hw with hw | hw
      · cases hw
        rfl
      · have hbeats := hfirst _ hw
        rcases hall first v List.mem_cons_self with rfl | hb
        · exact absurd hbeats hbeats.asymm
        · exact absurd hb hbeats.asymm

/-- All that may give the key a value, from what wins to what loses. -/
def candidates (inlined : List (Rank × Text)) (located : List ((Rank × Text) × Source))
    (key : Text) : List (Standing × Option Text) :=
  inlined.reverse.map (fun p => (.inlined p.1, Properties.valueIn? key p.2))
    ++ located.reverse.map fun p => (.located p.1.1, p.2.properties.get? key)

section Candidates

variable {declarations : List Declaration} {inlined : List (Rank × Text)}
  {located : List ((Rank × Text) × Source)} {key : Text}

theorem candidates_pairwise (hi : inlined.Pairwise fun a b => b.1.Beats a.1)
    (hl : located.Pairwise fun a b => b.1.1.Beats a.1.1) :
    (candidates inlined located key).Pairwise fun a b => a.1.Beats b.1 := by
  rw [candidates, List.pairwise_append, List.pairwise_map, List.pairwise_map,
    List.pairwise_reverse, List.pairwise_reverse]
  refine ⟨hi, hl, fun a ha b hb => ?_⟩
  obtain ⟨_, _, rfl⟩ := List.mem_map.mp ha
  obtain ⟨_, _, rfl⟩ := List.mem_map.mp hb
  trivial

theorem mem_candidates_iff {texts : List Text} {standing : Standing} {value : Text}
    (h : Ranked (PropertyAt declarations) texts inlined) :
    (standing, some value) ∈ candidates inlined located key ↔
      Gives declarations located standing key value := by
  simp only [candidates, List.mem_append, List.mem_map, List.mem_reverse, Prod.mk.injEq]
  constructor
  · rintro (⟨⟨rank, entry⟩, hm, rfl, hv⟩ | ⟨⟨⟨rank, location⟩, source⟩, hm, rfl, hv⟩)
    · exact .inlined ((h.mem_iff rank entry).mp hm) hv
    · exact .located hm hv
  · intro hg
    cases hg with
    | inlined hat hv => exact .inl ⟨_, (h.mem_iff _ _).mpr hat, rfl, hv⟩
    | located hm hv => exact .inr ⟨_, hm, rfl, hv⟩

theorem findSome?_candidates :
    (candidates inlined located key).findSome? Prod.snd =
      ((inlined.map Prod.snd).reverse.findSome? (Properties.valueIn? key)).or
        (firstValue? (located.map Prod.snd).reverse key) := by
  rw [candidates, List.findSome?_append, List.findSome?_map, List.findSome?_map, firstValue?,
    ← List.map_reverse, ← List.map_reverse, List.findSome?_map, List.findSome?_map]
  rfl

end Candidates

namespace Environment

variable {loader : Loader} {encoding : Text} {lenient : Bool}

/-- Over a fresh environment an inline entry counts before any location. -/
theorem rawProperty?_applyMerged_empty {merged : MergedSources} {sources : List Source}
    {properties : PropertyMap}
    (hs : (empty lenient).Loads loader encoding [] merged.locations sources)
    (hp : Properties.readEntries merged.properties = .ok properties)
    (hn : inlinedName ∉ sources.map Source.name) (key : Text) :
    ((empty lenient).applyMerged loader encoding merged).environment.rawProperty? key =
      (properties.get? key).or (firstValue? sources.reverse key) := by
  have hsame : SameByName (sources ++ (empty lenient).sources) := by
    rw [empty, List.append_nil]
    exact hs.sameByName
  have hraw : ((empty lenient).addAllHighest sources).rawProperty? key =
      firstValue? sources.reverse key := by
    rw [rawProperty?_addAllHighest key sources hsame, stagedScope_get?]
    exact Option.or_none
  have hnone : ((empty lenient).addAllHighest sources).get? inlinedName = none := by
    rw [get?_addAllHighest]
    refine Option.or_eq_none_iff.mpr ⟨List.find?_eq_none.mpr fun s hm hname => hn ?_, rfl⟩
    exact List.mem_map.mpr ⟨s, by simpa using hm, by simpa using hname⟩
  rw [applyMerged_of_loads hs]
  by_cases hne : merged.properties = []
  · rw [hne] at hp ⊢
    cases hp
    rw [PropertyMap.get?_empty, Option.none_or]
    exact hraw
  · rw [applyInlined_of_readEntries hne hp]
    show (overlayInlined _ properties).rawProperty? key = _
    rw [overlayInlined_of_none hnone, rawProperty?_addHighest key, hraw]
    intro s hm hname
    exact absurd (List.mem_map.mpr ⟨s, hm, hname⟩) (get?_eq_none_iff.mp hnone)

/-- How keys are looked up in a fresh environment once all that is declared has been applied. -/
structure Precedence (after : Environment) (loader : Loader) (suffix encoding : Text)
    (lenient : Bool) (declarations : List Declaration) (merged : MergedSources)
    (sources : List Source) (ranked : List (Rank × Text)) : Prop where
  /-- The sources are what the locations come to, one for each. -/
  loads : (empty lenient).Loads loader encoding [] merged.locations sources
  order : Ranked (LocationAt loader suffix declarations) merged.locations ranked
  /-- The last inline entry that gives a value counts, or else the last source that does. -/
  value : ∀ key, after.rawProperty? key =
    (merged.properties.reverse.findSome? (Properties.valueIn? key)).or
      (firstValue? sources.reverse key)
  /-- The value is given from where no other standing that gives the key a value wins. -/
  winner : ∀ key value, after.rawProperty? key = some value ↔
    ∃ standing, Gives declarations (ranked.zip sources) standing key value
      ∧ ∀ other v, Gives declarations (ranked.zip sources) other key v →
        other = standing ∨ standing.Beats other

theorem precedence_of_applyMerged {suffix : Text} {declarations : List Declaration}
    {merged : MergedSources} (hm : mergeDeclarations loader suffix declarations = .ok merged)
    (ha : ((empty lenient).applyMerged loader encoding merged).failure? = none)
    (hn : inlinedName ∉ ((empty lenient).applyMerged loader encoding merged).asked) :
    ∃ sources ranked,
      Precedence ((empty lenient).applyMerged loader encoding merged).environment loader suffix
        encoding lenient declarations merged sources ranked := by
  obtain ⟨sources, properties, hs, hp⟩ := loads_of_applyMerged ha
  obtain ⟨⟨inlined, hinlined⟩, ranked, hranked⟩ := ranked_of_mergeDeclarations hm
  have hnames : inlinedName ∉ sources.map Source.name := by
    rw [applyMerged_of_loads hs] at hn
    exact hn
  have hlength : ranked.length = sources.length := by
    rw [hs.length_eq, ← hranked.texts_eq, List.length_map]
  have hraw : ∀ key,
      ((empty lenient).applyMerged loader encoding merged).environment.rawProperty? key =
        (merged.properties.reverse.findSome? (Properties.valueIn? key)).or
          (firstValue? sources.reverse key) := by
    intro key
    rw [← Properties.get?_readEntries key hp]
    exact rawProperty?_applyMerged_empty hs hp hnames key
  refine ⟨sources, ranked, hs, hranked, hraw, fun key value => ?_⟩
  have hordered : (ranked.zip sources).Pairwise fun a b => b.1.1.Beats a.1.1 := by
    have ho := hranked.ordered
    have hzip : (ranked.zip sources).map Prod.fst = ranked := List.map_fst_zip (by omega)
    rw [← hzip, List.pairwise_map] at ho
    exact ho
  have hcandidates :
      ((empty lenient).applyMerged loader encoding merged).environment.rawProperty? key =
        (candidates inlined (ranked.zip sources) key).findSome? Prod.snd := by
    rw [findSome?_candidates, hinlined.texts_eq, List.map_snd_zip (by omega), hraw key]
  rw [hcandidates, findSome?_eq_some_iff_of_beats (candidates_pairwise hinlined.ordered hordered)]
  simp only [mem_candidates_iff hinlined]

/-- A class with two declarations, the one further away given last, and an ancestor with one. -/
def threeDeclarations : List Declaration :=
  let base : Declaration :=
    { declaring := ⟨"m", "Base", [], false⟩, level := 1, distance := 0
      locations := ["file:a"], properties := ["k=0"]
      inheritLocations := true, inheritProperties := true }
  let derived : Declaration :=
    { base with
      declaring := ⟨"m", "Derived", [], false⟩, level := 0
      locations := ["file:b"], properties := [] }
  [base, derived, { derived with locations := ["file:c"], distance := 1 }]

/-- All three resources give `j` a value. -/
def threeResources : Loader :=
  .ofEntries [("file:a", [106, 61, 49]), ("file:b", [106, 61, 50]), ("file:c", [106, 61, 51])]

theorem mergeDeclarations_threeDeclarations :
    mergeDeclarations threeResources ".properties" threeDeclarations =
      .ok ⟨["file:a", "file:c", "file:b"], ["k=0"]⟩ := by
  have hf : Level.foldAll threeResources ".properties" [] (Declaration.levels threeDeclarations) =
      .ok [⟨⟨"m", "Derived", [], false⟩, 0, ["file:c", "file:b"], [], true, true⟩,
        ⟨⟨"m", "Base", [], false⟩, 1, ["file:a"], ["k=0"], true, true⟩] := by cbv
  have hk : Level.knownAfterAll threeResources ".properties"
      (Declaration.levels threeDeclarations) = [] := by cbv
  rw [mergeDeclarations_of_ok hf, hk]
  rfl

theorem loads_threeResources :
    (empty false).Loads threeResources "utf-8" [] ["file:a", "file:c", "file:b"]
      [⟨"file:a", .ofPairs [("j", "1")]⟩, ⟨"file:c", .ofPairs [("j", "3")]⟩,
        ⟨"file:b", .ofPairs [("j", "2")]⟩] :=
  .cons (resolveLocation_of_dollar_not_mem _ (by decide)) rfl
    (.cons (resolveLocation_of_dollar_not_mem _ (by decide)) rfl
      (.cons (resolveLocation_of_dollar_not_mem _ (by decide)) rfl .nil))

theorem precedence_of_applyMerged_threeDeclarations :
    let merged : MergedSources := ⟨["file:a", "file:c", "file:b"], ["k=0"]⟩
    mergeDeclarations threeResources ".properties" threeDeclarations = .ok merged
      ∧ ((empty false).applyMerged threeResources "utf-8" merged).failure? = none
      ∧ inlinedName ∉ ((empty false).applyMerged threeResources "utf-8" merged).asked
      ∧ ∃ sources ranked,
        Precedence ((empty false).applyMerged threeResources "utf-8" merged).environment
          threeResources ".properties" "utf-8" false threeDeclarations merged sources ranked := by
  intro merged
  have hf : ((empty false).applyMerged threeResources "utf-8" merged).failure? = none := by
    rw [applyMerged_of_loads loads_threeResources]
    rfl
  have hn : inlinedName ∉ ((empty false).applyMerged threeResources "utf-8" merged).asked := by
    rw [applyMerged_of_loads loads_threeResources]
    decide
  exact ⟨mergeDeclarations_threeDeclarations, hf, hn,
    precedence_of_applyMerged mergeDeclarations_threeDeclarations hf hn⟩

end Environment

end PropertyLayers
