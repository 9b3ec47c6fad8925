import PropertyLayers.Environment.Application

/-!
# The sources of an environment

Adding a source on top hides what stood under its name and nothing else (`get?_addHighest`), so
sources that are added one after the other are looked up like a stack, the last one first
(`get?_addAllHighest`, `rawProperty?_addAllHighest`). What stands above a name after that is new or
stood above it before (`mem_above_addAllHighest`).
-/

namespace PropertyLayers

/-- Sources of one name hold the same properties. -/
def SameByName (sources : List Source) : Prop :=
  ∀ s ∈ sources, ∀ t ∈ sources, s.name = t.name → s.properties = t.properties

/-- The value in the first of these sources that holds the key. -/
def firstValue? (sources : List Source) (key : Text) : Option Text :=
  sources.findSome? fun s => s.properties.get? key

theorem firstValue?_append (upper lower : List Source) (key : Text) :
    firstValue? (upper ++ lower) key = (firstValue? upper key).or (firstValue? lower key) := by
  rw [firstValue?, List.findSome?_append]
  rfl

/-- A source that does not hold the key may as well be left out. -/
theorem firstValue?_eraseP {p : Source → Bool} {key : Text} :
    ∀ {sources : List Source}, (∀ s ∈ sources, p s → s.properties.get? key = none) →
      firstValue? (sources.eraseP p) key = firstValue? sources key
  | [], _ => rfl
  | s :: rest, h => by
    by_cases hp : p s
    · have hs := h s List.mem_cons_self hp
      rw [List.eraseP_cons_of_pos hp, firstValue?, firstValue?, List.findSome?_cons, hs]
    · have ih := firstValue?_eraseP fun t ht => h t (List.mem_cons_of_mem s ht)
      rw [List.eraseP_cons_of_neg hp]
      simp only [firstValue?, List.findSome?_cons] at ih ⊢
      rw [ih]

/-- Nothing that is looked for is left out. -/
theorem find?_eraseP {p q : Source → Bool} {sources : List Source} (h : ∀ s, q s → ¬ p s) :
    (sources.eraseP q).find? p = sources.find? p := by
  rcases List.exists_or_eq_self_of_eraseP q sources with hs | ⟨s, upper, lower, -, hq, hs, he⟩
  · rw [hs]
  · rw [he, hs, List.find?_append, List.find?_append, List.find?_cons_of_neg (h s hq)]

theorem takeWhile_eraseP {p q : Source → Bool} (h : ∀ s, q s → p s) :
    ∀ sources : List Source,
      (sources.eraseP q).takeWhile p = (sources.takeWhile p).eraseP q
  | [] => rfl
  | s :: rest => by
    by_cases hq : q s
    · rw [List.eraseP_cons_of_pos hq, List.takeWhile_cons_of_pos (h s hq),
        List.eraseP_cons_of_pos hq]
    · rw [List.eraseP_cons_of_neg hq]
      by_cases hp : p s
      · rw [List.takeWhile_cons_of_pos hp, List.takeWhile_cons_of_pos hp,
          List.eraseP_cons_of_neg hq, takeWhile_eraseP h rest]
      · rw [List.takeWhile_cons_of_neg hp, List.takeWhile_cons_of_neg hp]
        rfl

namespace Environment

/-- The sources that stand before the one of this name. -/
def above (env : Environment) (name : Text) : List Source :=
  env.sources.takeWhile fun s => s.name ≠ name

theorem rawProperty?_eq (env : Environment) (key : Text) :
    env.rawProperty? key = firstValue? env.sources key := by
  rw [rawProperty?, Scope.get?, scope, List.findSome?_map]
  rfl

theorem stagedScope_get? (env : Environment) (staged : List Source) (key : Text) :
    (env.stagedScope staged).get? key =
      (firstValue? staged.reverse key).or (env.rawProperty? key) := by
  rw [Scope.get?, stagedScope, List.findSome?_append, List.findSome?_map]
  rfl

theorem mem_of_get? {env : Environment} {name : Text} {s : Source} (h : env.get? name = some s) :
    s ∈ env.sources ∧ s.name = name :=
  ⟨List.mem_of_find?_eq_some h, by simpa using List.find?_some h⟩

theorem get?_eq_none_iff {env : Environment} {name : Text} :
    env.get? name = none ↔ name ∉ env.names := by
  rw [get?, List.find?_eq_none, names, List.mem_map]
  simp

/-- The first source that equals the first one of a name is that one. -/
theorem eraseP_eq_of_find? {name : Text} {s : Source} (hs : s.name = name) :
    ∀ {sources : List Source}, sources.find? (fun t => t.name = name) = some s →
      sources.eraseP (fun t => s == t) = sources.eraseP fun t => t.name = name
  | [], h => by simp at h
  | t :: rest, h => by
    by_cases ht : t.name = name
    · rw [List.find?_cons_of_pos (by simpa using ht)] at h
      cases h
      simp [hs]
    · rw [List.find?_cons_of_neg (by simpa using ht)] at h
      have hne : s ≠ t := fun hst => ht (hst ▸ hs)
      simp [hne, ht, eraseP_eq_of_find? hs h]

theorem sources_remove (env : Environment) (name : Text) :
    (env.remove name).sources = env.sources.eraseP fun s => s.name = name := by
  unfold remove
  rcases h : env.get? name with _ | s
  · have hn := get?_eq_none_iff.mp h
    rw [List.eraseP_of_forall_not]
    intro t ht hp
    exact hn (List.mem_map.mpr ⟨t, ht, by simpa using hp⟩)
  · obtain ⟨-, hs⟩ := mem_of_get? h
    simp only [List.erase_eq_eraseP]
    exact eraseP_eq_of_find? hs h

theorem sources_addHighest (env : Environment) (source : Source) :
    (env.addHighest source).sources =
      source :: env.sources.eraseP fun s => s.name = source.name := by
  rw [addHighest, sources_remove]

theorem get?_addHighest (env : Environment) (source : Source) (name : Text) :
    (env.addHighest source).get? name =
      if source.name = name then some source else env.get? name := by
  rw [get?, sources_addHighest]
  by_cases h : source.name = name
  · simp [h]
  · rw [List.find?_cons_of_neg (by simpa using h), if_neg h, get?]
    refine find?_eraseP fun s hs hn => h ?_
    have hs : s.name = source.name := by simpa using hs
    have hn : s.name = name := by simpa using hn
    exact hs.symm.trans hn

/-- Over sources that agree with it, a source that is added is asked first. -/
theorem rawProperty?_addHighest {env : Environment} {source : Source} (key : Text)
    (h : ∀ s ∈ env.sources, s.name = source.name → s.properties = source.properties) :
    (env.addHighest source).rawProperty? key =
      (source.properties.get? key).or (env.rawProperty? key) := by
  rw [rawProperty?_eq, rawProperty?_eq, sources_addHighest, firstValue?, List.findSome?_cons]
  rcases hv : source.properties.get? key with _ | value
  · refine firstValue?_eraseP fun s hs hn => ?_
    rw [h s hs (by simpa using hn), hv]
  · rfl

theorem above_addHighest (env : Environment) (source : Source) (name : Text) :
    (env.addHighest source).above name =
      if source.name = name then []
      else source :: (env.above name).eraseP fun s => s.name = source.name := by
  rw [above, sources_addHighest]
  by_cases h : source.name = name
  · simp [h]
  · rw [List.takeWhile_cons_of_pos (by simpa using h), if_neg h, above, takeWhile_eraseP]
    intro s hs
    have hs : s.name = source.name := by simpa using hs
    simpa [hs] using h

theorem addAllHighest_cons (env : Environment) (source : Source) (rest : List Source) :
    env.addAllHighest (source :: rest) = (env.addHighest source).addAllHighest rest := rfl

theorem get?_addAllHighest (name : Text) :
    ∀ (sources : List Source) (env : Environment),
      (env.addAllHighest sources).get? name =
        (sources.reverse.find? fun s => s.name = name).or (env.get? name)
  | [], env => rfl
  | source :: rest, env => by
    rw [addAllHighest_cons, get?_addAllHighest name rest, get?_addHighest, List.reverse_cons,
      List.find?_append, Option.or_assoc]
    by_cases h : source.name = name <;> simp [h]

/-- Over sources that agree with each other, sources that are added one after the other are asked
for a key like the scope of a location that comes after them. -/
theorem rawProperty?_addAllHighest (key : Text) :
    ∀ (sources : List Source) {env : Environment}, SameByName (sources ++ env.sources) →
      (env.addAllHighest sources).rawProperty? key = (env.stagedScope sources).get? key
  | [], env, _ => rfl
  | source :: rest, env, h => by
    have hs : ∀ s ∈ env.sources, s.name = source.name → s.properties = source.properties :=
      fun s hs hn => h s (by simp [hs]) source (by simp) hn
    have hrest : SameByName (rest ++ (env.addHighest source).sources) := by
      have hsub : ∀ s ∈ rest ++ (env.addHighest source).sources,
          s ∈ source :: rest ++ env.sources := by
        intro s hs
        rw [sources_addHighest] at hs
        simp only [List.mem_append, List.mem_cons] at hs ⊢
        rcases hs with hs | rfl | hs
        · exact .inl (.inr hs)
        · exact .inl (.inl rfl)
        · exact .inr (List.mem_of_mem_eraseP hs)
      exact fun s hs t ht => h s (hsub s hs) t (hsub t ht)
    rw [addAllHighest_cons, rawProperty?_addAllHighest key rest hrest, stagedScope_get?,
      stagedScope_get?, rawProperty?_addHighest key hs, List.reverse_cons, firstValue?_append,
      Option.or_assoc]
    simp [firstValue?]

theorem mem_above_addAllHighest {s : Source} {name : Text} :
    ∀ (sources : List Source) (env : Environment),
      s ∈ (env.addAllHighest sources).above name → s ∈ sources ∨ s ∈ env.above name
  | [], _, h => .inr h
  | source :: rest, env, h => by
    rcases mem_above_addAllHighest rest (env.addHighest source) h with hs | hs
    · exact .inl (List.mem_cons_of_mem source hs)
    · rw [above_addHighest] at hs
      split at hs
      · simp at hs
      · rcases List.mem_cons.mp hs with rfl | hs
        · exact .inl List.mem_cons_self
        · exact .inr (List.mem_of_mem_eraseP hs)

end Environment

end PropertyLayers
