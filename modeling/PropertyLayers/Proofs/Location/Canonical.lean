import PropertyLayers.Location.Canonical
import PropertyLayers.Proofs.Files.Normal

/-!
# Canonical locations stay as they are

A location in full has a scheme or starts with a placeholder, and no class sees it from its package
(`qualify_of_isFull`). To clean it leaves it full and leaves a second time nothing to do
(`isFull_clean`, `clean_clean`), so a canonical location is the canonical location of every class
(`canonical_canonical`). Where neither a location nor the package that it is seen from holds the
start of a placeholder, the path after the scheme is normal (`normalText_of_cleanAfter`).
-/

namespace PropertyLayers

namespace Location

open FilePath (slash)

variable {location scheme path : Text}

/-! ## The start of a placeholder in a text -/

theorem holds_cons_of_ne {c : CodePoint} (h : c ≠ dollar) (t : Text) :
    placeholderStart.holds (c :: t) = placeholderStart.holds t := by
  simp [Text.holds, placeholderStart, List.isPrefixOf, Ne.symm h]

theorem holds_append_of_not_mem (t : Text) :
    ∀ {before : Text}, dollar ∉ before →
      placeholderStart.holds (before ++ t) = placeholderStart.holds t
  | [], _ => rfl
  | c :: before, h => by
    obtain ⟨hc, hbefore⟩ := not_or.mp (mt List.mem_cons.mpr h)
    rw [List.cons_append, holds_cons_of_ne (Ne.symm hc), holds_append_of_not_mem t hbefore]

/-- A placeholder does not start across a slash. -/
theorem holds_append_slash (t : Text) :
    ∀ before : Text, placeholderStart.holds (before ++ slash :: t) =
      (placeholderStart.holds before || placeholderStart.holds t)
  | [] => holds_cons_of_ne (by decide) t
  | [c] => by
    have ih := holds_append_slash t []
    rw [List.nil_append] at ih
    have hs : (openBrace == slash) = false := by decide
    rw [List.singleton_append, Text.holds, ih]
    simp [Text.holds, placeholderStart, List.isPrefixOf, hs]
  | c :: d :: before => by
    have ih := holds_append_slash t (d :: before)
    have hstart : placeholderStart.isPrefixOf (c :: (d :: before ++ slash :: t)) =
        placeholderStart.isPrefixOf (c :: d :: before) := by
      simp [placeholderStart, List.isPrefixOf]
    rw [List.cons_append, Text.holds, ih, hstart, ← Bool.or_assoc]
    rfl

theorem holds_dropLeading :
    ∀ t : Text, placeholderStart.holds (t.dropLeading slash) = placeholderStart.holds t
  | [] => rfl
  | c :: t => by
    by_cases hc : c = slash
    · rw [hc, holds_cons_of_ne (by decide), ← holds_dropLeading t]
      rfl
    · rw [Text.dropLeading, List.dropWhile_cons_of_neg (by simpa using hc)]

theorem holds_of_isPrefixOf (h : placeholderStart.isPrefixOf location) :
    placeholderStart.holds location := by
  rcases location with _ | ⟨c, rest⟩
  · cases h
  · rw [Text.holds, h, Bool.true_or]

theorem holds_classPath (t : Text) :
    placeholderStart.holds (classPathScheme ++ t) = placeholderStart.holds t :=
  holds_append_of_not_mem t (by decide)

/-! ## Locations in full -/

/-- The location does not depend on where it is seen from. -/
structure IsFull (location : Text) : Prop where
  head : location.head? ≠ some slash
  start : hasScheme location ∨ placeholderStart.isPrefixOf location

theorem isFull_of_scheme (h : IsScheme scheme) (path : Text) : IsFull (scheme ++ path) where
  head := by
    obtain ⟨name, hn, rfl⟩ := h
    rcases name with _ | ⟨c, rest⟩
    · cases hn
    · intro hc
      have hc : c = slash := by simpa using hc
      subst hc
      rcases rest with _ | ⟨d, rest⟩
      · cases hn
      · simp [isSchemeName, show slash.isLetter = false by decide] at hn
  start := .inl (hasScheme_of_scheme h path)

/-- A location in full holds the start of a placeholder, or else it has a scheme. -/
theorem IsFull.cases (h : IsFull location) :
    placeholderStart.holds location ∨
      placeholderStart.holds location = false ∧
        ∃ scheme path, IsScheme scheme ∧ location = scheme ++ path := by
  rcases hh : placeholderStart.holds location
  · rcases h.start with hs | hp
    · exact .inr ⟨rfl, _, _, isScheme_of_hasScheme hs, (splitScheme_append location).symm⟩
    · rw [holds_of_isPrefixOf hp] at hh
      cases hh
  · exact .inl rfl

theorem clean_of_holds (h : placeholderStart.holds location) : clean location = location := by
  simp [clean, h]

theorem clean_of_scheme (hs : IsScheme scheme) (h : placeholderStart.holds (scheme ++ path) = false) :
    clean (scheme ++ path) = scheme ++ if path = [] then [] else cleanPath scheme path := by
  rw [clean, splitScheme_of_scheme hs, h]
  by_cases hp : path = []
  · simp [hp]
  · simp [hp]

/-! ## Paths after a scheme -/

/-- The path can stand after the scheme in a canonical location: nothing is left of it, or it is
the text of a normal path, which is relative under the class path. -/
def CleanAfter (scheme path : Text) : Prop :=
  path = [] ∨ ∃ p : FilePath, p.IsNormal ∧ (scheme = classPathScheme → p.anchor = .relative)
    ∧ path = p.toText

theorem cleanAfter_cleanPath (scheme path : Text) : CleanAfter scheme (cleanPath scheme path) := by
  have hn := FilePath.isNormal_normal_ofText path
  rw [cleanPath]
  generalize (FilePath.ofText path).normal = p at hn
  by_cases hs : scheme = classPathScheme
  · rw [if_pos hs]
    by_cases hr : p.anchor = .relative
    · exact .inr ⟨p, hn, fun _ => hr, FilePath.dropLeading_toText_relative hn hr⟩
    · rw [FilePath.dropLeading_toText hn (.inl hr)]
      by_cases hne : p.segments = []
      · exact .inl (by rw [hne, Text.join])
      · have htext := @FilePath.toText_eq ⟨.relative, p.segments⟩ (.inr hne)
        exact .inr ⟨⟨.relative, p.segments⟩, hn.relative, fun _ => rfl, htext.symm⟩
  · rw [if_neg hs]
    exact .inr ⟨p, hn, fun h => absurd h hs, rfl⟩

theorem cleanPath_of_cleanAfter (h : CleanAfter scheme path) (hne : path ≠ []) :
    cleanPath scheme path = path := by
  obtain ⟨p, hn, hr, rfl⟩ := h.resolve_left hne
  rw [cleanPath, FilePath.ofText_toText hn.whole, FilePath.normal_of_isNormal hn]
  split
  · rename_i hs
    exact FilePath.dropLeading_toText_relative hn (hr hs)
  · rfl

theorem clean_of_cleanAfter (hs : IsScheme scheme) (h : CleanAfter scheme path) :
    clean (scheme ++ path) = scheme ++ path := by
  rcases hh : placeholderStart.holds (scheme ++ path)
  · rw [clean_of_scheme hs hh]
    split
    · rename_i hp
      rw [hp]
    · rename_i hp
      rw [cleanPath_of_cleanAfter h hp]
  · exact clean_of_holds hh

/-- To clean a location in full leaves it alone, or leaves a scheme and a clean path. -/
theorem IsFull.clean_cases (h : IsFull location) :
    placeholderStart.holds location ∧ clean location = location ∨
      placeholderStart.holds location = false ∧ ∃ scheme path, IsScheme scheme
        ∧ CleanAfter scheme path ∧ clean location = scheme ++ path := by
  rcases h.cases with hh | ⟨hh, scheme, path, hs, rfl⟩
  · exact .inl ⟨hh, clean_of_holds hh⟩
  · refine .inr ⟨hh, scheme, _, hs, ?_, clean_of_scheme hs hh⟩
    split
    · exact .inl rfl
    · exact cleanAfter_cleanPath scheme path

theorem clean_clean (h : IsFull location) : clean (clean location) = clean location := by
  rcases h.clean_cases with ⟨-, he⟩ | ⟨-, scheme, path, hs, hp, he⟩
  · rw [he, he]
  · rw [he, clean_of_cleanAfter hs hp]

theorem isFull_clean (h : IsFull location) : IsFull (clean location) := by
  rcases h.clean_cases with ⟨-, he⟩ | ⟨-, scheme, path, hs, -, he⟩
  · rwa [he]
  · rw [he]
    exact isFull_of_scheme hs path

theorem normalText_of_cleanAfter (h : CleanAfter scheme path) :
    path = [] ∨ FilePath.NormalText path
      ∧ (scheme = classPathScheme → path.head? ≠ some slash) := by
  refine h.imp_right ?_
  rintro ⟨p, hn, hr, rfl⟩
  refine ⟨FilePath.normalText_toText hn, fun hs hhead => ?_⟩
  rw [← FilePath.dropLeading_toText_relative hn (hr hs)] at hhead
  exact FilePath.head?_dropLeading p.toText hhead

end Location

namespace TestClass

open FilePath (slash)

variable {c d : TestClass} {location : Text}

theorem isFull_inOwnPackage (c : TestClass) (path : Text) :
    Location.IsFull (c.inOwnPackage path) := by
  unfold inOwnPackage
  split
  · exact Location.isFull_of_scheme Location.isScheme_classPath path
  · rw [List.append_assoc]
    exact Location.isFull_of_scheme Location.isScheme_classPath _

theorem isFull_qualify (c : TestClass) (location : Text) : Location.IsFull (c.qualify location) := by
  unfold qualify
  split
  · exact Location.isFull_of_scheme Location.isScheme_classPath _
  · split
    · rename_i hhead hstart
      exact ⟨hhead, by simpa using hstart⟩
    · exact isFull_inOwnPackage c location

theorem qualify_of_isFull (h : Location.IsFull location) : c.qualify location = location := by
  rw [qualify, if_neg h.head, if_pos (by simpa using h.start)]

theorem canonical_canonical (c d : TestClass) (location : Text) :
    d.canonical (c.canonical location) = c.canonical location := by
  have hfull := isFull_qualify c location
  rw [canonical, canonical, qualify_of_isFull (Location.isFull_clean hfull),
    Location.clean_clean hfull]

/-- The location is seen from the package of a class. -/
def IsOwn (location : Text) : Prop :=
  location.head? ≠ some slash ∧ ¬ Location.hasScheme location

theorem not_holds_qualify (h : ¬ Location.placeholderStart.holds location)
    (hp : IsOwn location → ¬ Location.placeholderStart.holds c.packagePath) :
    ¬ Location.placeholderStart.holds (c.qualify location) := by
  unfold qualify
  split
  · rwa [Location.holds_classPath, Location.holds_dropLeading]
  · rename_i hhead
    split
    · exact h
    · rename_i hstart
      have hp := hp ⟨hhead, fun hs => hstart (by simp [hs])⟩
      unfold inOwnPackage
      split
      · rwa [Location.holds_classPath]
      · rw [List.append_assoc, Location.holds_classPath, Location.holds_append_slash]
        simp [h, hp]

/-- A canonical location is canonical for every class. Where no placeholder starts in a location,
nor in the package that it is seen from, a scheme comes to stand before a path in normal form. -/
theorem canonical_fixed :
    (∀ (c d : TestClass) (locations : List Text),
        (locations.map c.canonical).map d.canonical = locations.map c.canonical) ∧
      ∀ (c : TestClass) (location : Text), ¬ Location.placeholderStart.holds location →
        (IsOwn location → ¬ Location.placeholderStart.holds c.packagePath) →
          ∃ scheme path, Location.splitScheme (c.canonical location) = (scheme, path)
            ∧ c.canonical location = scheme ++ path ∧ Location.IsScheme scheme
            ∧ (path = [] ∨ FilePath.NormalText path
              ∧ (scheme = Location.classPathScheme → path.head? ≠ some slash)) := by
  refine ⟨fun c d locations => ?_, fun c location h hp => ?_⟩
  · rw [List.map_map]
    exact List.map_congr_left fun location _ => canonical_canonical c d location
  · have hh := not_holds_qualify h hp
    rcases (isFull_qualify c location).clean_cases with ⟨ht, -⟩ | ⟨-, scheme, path, hs, hclean, he⟩
    · exact absurd ht hh
    · refine ⟨scheme, path, ?_, he, hs, Location.normalText_of_cleanAfter hclean⟩
      rw [canonical, he, Location.splitScheme_of_scheme hs]

theorem canonical_fixed_plain :
    let c : TestClass := ⟨"pkg.sub.m", "C", [], false⟩
    let location : Text := "../other//./a.properties"
    ¬ Location.placeholderStart.holds location
      ∧ (IsOwn location → ¬ Location.placeholderStart.holds c.packagePath)
      ∧ ∃ scheme path, Location.splitScheme (c.canonical location) = (scheme, path)
        ∧ c.canonical location = scheme ++ path ∧ Location.IsScheme scheme
        ∧ (path = [] ∨ FilePath.NormalText path
          ∧ (scheme = Location.classPathScheme → path.head? ≠ some slash)) := by
  intro c location
  have h : ¬ Location.placeholderStart.holds location := by decide
  have hp : IsOwn location → ¬ Location.placeholderStart.holds c.packagePath :=
    fun _ => by decide
  exact ⟨h, hp, canonical_fixed.2 c location h hp⟩

/-- In a package whose path holds the start of a placeholder a location is not cleaned. -/
theorem canonical_uncleaned :
    let c : TestClass := ⟨"a$\x7bb\x7d.m", "C", [], false⟩
    let path : Text := "a$\x7bb\x7d/x//y"
    ¬ Location.placeholderStart.holds "x//y"
      ∧ Location.splitScheme (c.canonical "x//y") = (Location.classPathScheme, path)
      ∧ path ≠ [] ∧ ¬ FilePath.NormalText path := by
  refine ⟨by decide, by decide, by decide, fun h => ?_⟩
  exact h.nonempty [] (by decide) rfl

end TestClass

end PropertyLayers
