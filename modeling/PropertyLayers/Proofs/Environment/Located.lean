import Mathlib
import PropertyLayers.Proofs.Environment.Distinct

/-!
# Where located sources stand

Locations that are applied may come to one name several times, as they are written or once they are
resolved. Of each name one source is left, and a name stands above another where it comes once more
behind it (`lastFirst_latest`). The sources of other names follow as they stood before
(`sources_applyLocations`).
-/

namespace PropertyLayers

/-- The name comes once more behind the last place of the other. -/
def ComesLater (names : List Text) (name other : Text) : Prop :=
  ∃ before after, names = before ++ name :: after ∧ other ∉ name :: after

/-- There is a source for each of the names, and what comes later stands first. No name comes later
than itself, so each has one source only. -/
structure LastFirst (names : List Text) (sources : List Source) : Prop where
  covers : ∀ name, name ∈ sources.map Source.name ↔ name ∈ names
  descending : (sources.map Source.name).Pairwise (ComesLater names)

theorem ComesLater.cons {names : List Text} {name other : Text} (h : ComesLater names name other)
    (first : Text) : ComesLater (first :: names) name other := by
  obtain ⟨before, after, rfl, ho⟩ := h
  exact ⟨first :: before, after, rfl, ho⟩

/-- A name that does not come again comes before all that follow it. -/
theorem comesLater_of_not_mem {names : List Text} {name other : Text} (hn : name ∈ names)
    (ho : other ∉ names) : ComesLater (other :: names) name other := by
  obtain ⟨before, after, rfl⟩ := List.append_of_mem hn
  exact ⟨other :: before, after, rfl, fun hm => ho (List.mem_append_right before hm)⟩

theorem mem_of_mem_latest {s : Source} : ∀ {sources : List Source}, s ∈ latest sources → s ∈ sources
  | _ :: _, h => by
    rcases List.mem_append.mp h with hs | hs
    · exact List.mem_cons_of_mem _ (mem_of_mem_latest hs)
    · rw [List.mem_singleton.mp (mem_othersThan.mp hs).1]
      exact List.mem_cons_self

theorem pairwise_latest_names :
    ∀ sources : List Source,
      ((latest sources).map Source.name).Pairwise (ComesLater (sources.map Source.name))
  | [] => .nil
  | s :: rest => by
    rw [latest, List.map_append, List.map_cons, List.pairwise_append]
    refine ⟨(pairwise_latest_names rest).imp fun h => h.cons s.name, ?_, fun name hn other ho => ?_⟩
    · exact (List.pairwise_singleton _ s.name).sublist (List.filter_sublist.map Source.name)
    · obtain ⟨t, ht, rfl⟩ := List.mem_map.mp ho
      obtain ⟨hs, ht⟩ := mem_othersThan.mp ht
      rw [List.mem_singleton.mp hs] at ht ⊢
      exact comesLater_of_not_mem (mem_latest_names.mp hn) ht

theorem lastFirst_latest (sources : List Source) :
    LastFirst (sources.map Source.name) (latest sources) :=
  ⟨fun _ => mem_latest_names, pairwise_latest_names sources⟩

namespace Environment

variable {env : Environment} {loader : Loader} {encoding : Text} {locations : List Text}

/-- Where all locations load, the sources of the names that they come to stand on top, what comes
later first, and each is what the loader gives for its name. The sources of other names stand below
in the order in which they stood. -/
theorem sources_applyLocations (hn : env.names.Nodup)
    (h : (env.applyLocations loader encoding locations).failure? = none) :
    let applied := env.applyLocations loader encoding locations
    ∃ staged loaded, env.Loads loader encoding [] locations staged
      ∧ applied.asked = staged.map Source.name
      ∧ LastFirst applied.asked loaded
      ∧ (∀ s ∈ loaded, loader.source s.name encoding = .ok s)
      ∧ applied.environment.sources = loaded ++ othersThan applied.asked env.sources := by
  obtain ⟨staged, hl⟩ := loads_of_applyLocations h
  rw [applyLocations_eq_of_loads hl]
  exact ⟨staged, latest staged, hl, rfl, lastFirst_latest staged,
    fun s hs => hl.source_eq s (mem_of_mem_latest hs), sources_addAllHighest staged hn⟩

/-- An environment that holds a source under the name of a location. -/
def namedBefore : Environment :=
  ⟨[⟨"base", .ofPairs [("n", "x")]⟩, ⟨"x", .ofPairs [("k", "0")]⟩], false⟩

def twoResources : Loader := .ofEntries [("x", [107, 61, 49]), ("y", [107, 61, 50])]

/-- The last location comes to the same name as the first one. -/
def threeLocations : List Text := ["x", "y", "$\x7bn\x7d"]

/-- The sources that the locations come to where the last one comes to the first name again. -/
def threeSources : List Source :=
  [⟨"x", .ofPairs [("k", "1")]⟩, ⟨"y", .ofPairs [("k", "2")]⟩, ⟨"x", .ofPairs [("k", "1")]⟩]

theorem loads_threeLocations {env : Environment}
    (hlast : env.resolveLocation (threeSources.take 2) "$\x7bn\x7d" = .ok (Text.ofString "x")) :
    env.Loads twoResources "utf-8" [] threeLocations threeSources :=
  .cons (resolveLocation_of_dollar_not_mem _ (by decide)) rfl
    (.cons (resolveLocation_of_dollar_not_mem _ (by decide)) rfl (.cons hlast rfl .nil))

theorem sources_applyLocations_threeLocations :
    let applied := namedBefore.applyLocations twoResources "utf-8" threeLocations
    namedBefore.names.Nodup ∧ applied.failure? = none
      ∧ ∃ staged loaded, namedBefore.Loads twoResources "utf-8" [] threeLocations staged
        ∧ applied.asked = staged.map Source.name
        ∧ LastFirst applied.asked loaded
        ∧ (∀ s ∈ loaded, twoResources.source s.name "utf-8" = .ok s)
        ∧ applied.environment.sources = loaded ++ othersThan applied.asked namedBefore.sources := by
  have hn : namedBefore.names.Nodup := by decide
  have h : (namedBefore.applyLocations twoResources "utf-8" threeLocations).failure? = none := by
    rw [applyLocations_eq_of_loads (loads_threeLocations (by cbv))]
  exact ⟨hn, h, sources_applyLocations hn h⟩

end Environment

end PropertyLayers
