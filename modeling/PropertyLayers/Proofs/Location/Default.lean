import PropertyLayers.Configuration.Settings
import PropertyLayers.Proofs.Location.Canonical
import PropertyLayers.Proofs.Record.Accepted

/-!
# Default locations

The location of the resource that belongs to a class by its name has a scheme, so every class sees
the same canonical form of it (`canonical_defaultLocation`). A location on the class path is
canonical as it stands if a placeholder starts in it, and otherwise if its path is normal
(`clean_classPath_eq_iff`). The names of a module and of a class make a normal path where they have
no slash in them and no part is missing (`clean_defaultLocation_of_isOrdinary`).
-/

namespace PropertyLayers

namespace Text

theorem replace_eq_join (old new : CodePoint) :
    ∀ t : Text, t.replace old new = join [new] (t.split old)
  | [] => rfl
  | c :: t => by
    have ih := replace_eq_join old new t
    rw [replace] at ih
    rw [replace, List.map_cons, ih, split]
    rcases hs : split old t with _ | ⟨part, parts⟩
    · exact absurd hs (split_ne_nil old t)
    · by_cases hc : c = old
      · simp [hc, join]
      · cases parts <;> simp [hc, join]

theorem split_append_cons (separator : CodePoint) (after : Text) :
    ∀ before : Text, split separator (before ++ separator :: after) =
      split separator before ++ split separator after
  | [] => by simp [split]
  | c :: before => by
    have ih := split_append_cons separator after before
    rw [List.cons_append, split, split, ih]
    rcases hs : split separator before with _ | ⟨part, parts⟩
    · exact absurd hs (split_ne_nil separator before)
    · split <;> rfl

theorem append_of_cutLast? {separator : CodePoint} :
    ∀ {t before after : Text}, cutLast? separator t = some (before, after) →
      t = before ++ separator :: after
  | c :: rest, before, after, h => by
    simp only [cutLast?] at h
    split at h
    · rename_i hs
      cases h
      rw [List.cons_append, ← append_of_cutLast? hs]
    · split at h
      · rename_i hc
        cases h
        rw [hc, List.nil_append]
      · cases h

theorem mem_of_mem_split {separator c : CodePoint} :
    ∀ {t part : Text}, part ∈ split separator t → c ∈ part → c ∈ t
  | [], part, hp, hc => by
    rw [split, List.mem_singleton] at hp
    exact hp ▸ hc
  | d :: rest, part, hp, hc => by
    rw [split] at hp
    split at hp
    · rcases List.mem_cons.mp hp with rfl | hp
      · cases hc
      · exact List.mem_cons_of_mem d (mem_of_mem_split hp hc)
    · rcases hs : split separator rest with _ | ⟨first, others⟩
      · exact absurd hs (split_ne_nil separator rest)
      · rw [hs] at hp
        rcases List.mem_cons.mp hp with rfl | hp
        · rcases List.mem_cons.mp hc with rfl | hc
          · exact List.mem_cons_self
          · exact List.mem_cons_of_mem d (mem_of_mem_split (hs ▸ List.mem_cons_self) hc)
        · have hmem : part ∈ split separator rest := hs ▸ List.mem_cons_of_mem first hp
          exact List.mem_cons_of_mem d (mem_of_mem_split hmem hc)

theorem join_concat (separator last : Text) :
    ∀ {parts : List Text}, parts ≠ [] →
      join separator (parts ++ [last]) = join separator parts ++ separator ++ last
  | [part], _ => rfl
  | part :: next :: parts, _ => by
    have ih := join_concat separator last (List.cons_ne_nil next parts)
    rw [List.cons_append] at ih ⊢
    simp only [List.cons_append, join] at ih ⊢
    rw [ih]
    simp only [List.append_assoc]

end Text

namespace Location

/-- A location on the class path stays as it is if a placeholder starts in it or its path is clean,
and in no other case. -/
theorem clean_classPath_eq_iff {path : Text} :
    clean (classPathScheme ++ path) = classPathScheme ++ path ↔
      placeholderStart.holds path ∨ CleanAfter classPathScheme path := by
  constructor
  · intro h
    rcases hh : placeholderStart.holds path
    · rw [← holds_classPath] at hh
      rw [clean_of_scheme isScheme_classPath hh, List.append_cancel_left_eq] at h
      refine .inr ?_
      rw [← h]
      split
      · exact .inl rfl
      · exact cleanAfter_cleanPath classPathScheme path
    · exact .inl rfl
  · rintro (h | h)
    · exact clean_of_holds (by rwa [holds_classPath])
    · exact clean_of_cleanAfter isScheme_classPath h

/-- Names one below the other make a clean path. -/
theorem cleanAfter_join {scheme : Text} {names : List Text} (hne : names ≠ [])
    (hwhole : ∀ name ∈ names, FilePath.IsWhole name) (hup : FilePath.upward ∉ names) :
    CleanAfter scheme (Text.join [FilePath.slash] names) := by
  have htext : (⟨.relative, names⟩ : FilePath).toText = Text.join [FilePath.slash] names :=
    FilePath.toText_eq (.inr hne)
  exact .inr ⟨⟨.relative, names⟩, ⟨hwhole, ⟨0, names⟩, hup, rfl, fun _ => rfl⟩, fun _ => rfl,
    htext.symm⟩

end Location

namespace TestClass

open FilePath (slash)

variable {c : TestClass} {suffix : Text}

/-- Seen from any class, the canonical form of a default location is its clean form. -/
theorem canonical_defaultLocation (c d : TestClass) (suffix : Text) :
    d.canonical (c.defaultLocation suffix) = Location.clean (c.defaultLocation suffix) := by
  rw [canonical, defaultLocation, qualify_of_isFull (isFull_inOwnPackage c _)]

/-- Under the class path the default resource lies below the package of the class. -/
theorem defaultLocation_eq (c : TestClass) (suffix : Text) :
    ∃ path, c.defaultLocation suffix = Location.classPathScheme ++ path := by
  unfold defaultLocation inOwnPackage
  split
  · exact ⟨_, rfl⟩
  · exact ⟨_, List.append_assoc ..⟩

/-- A class with a name in a module all parts of which have names, none of them with a slash, and a
suffix that settings accept. -/
structure IsOrdinary (c : TestClass) (suffix : Text) : Prop where
  named : c.qualname ≠ []
  parts : [] ∉ c.module.split '.'
  flat : slash ∉ c.module ∧ slash ∉ c.qualname ∧ slash ∉ suffix
  accepted : Settings.checkSuffix (.text suffix) = .ok suffix

/-- The package of a class is found in parts of its module name, if there is one. -/
theorem packagePath_cases (c : TestClass) :
    c.packagePath = [] ∨ ∃ parts, parts ≠ [] ∧ c.packagePath = Text.join [slash] parts
      ∧ parts ⊆ c.module.split '.' := by
  have hsplit (package : Text) : package.replace '.' slash =
      Text.join [slash] (package.split '.') := Text.replace_eq_join '.' slash package
  unfold packagePath
  by_cases hpackage : c.inPackage
  · simp only [if_pos hpackage]
    exact .inr ⟨_, Text.split_ne_nil _ _, hsplit _, List.Subset.refl _⟩
  · simp only [if_neg hpackage]
    rcases hcut : c.module.cutLast? '.' with _ | ⟨package, last⟩
    · exact .inl rfl
    · refine .inr ⟨_, Text.split_ne_nil _ _, hsplit package, ?_⟩
      rw [Text.append_of_cutLast? hcut, Text.split_append_cons]
      exact List.subset_append_left _ _

namespace IsOrdinary

theorem two_le_length (h : c.IsOrdinary suffix) : 2 ≤ suffix.length := by
  obtain ⟨t, htext, -⟩ := Checked.andThen_eq_ok_iff.mp h.accepted
  exact (Check.longText_eq_ok_iff.mp htext).2.1

/-- No point stands in a part of a module name, so no part climbs. -/
theorem isWhole_part (h : c.IsOrdinary suffix) {part : Text} (hp : part ∈ c.module.split '.') :
    FilePath.IsWhole part ∧ part ≠ FilePath.upward := by
  have hpoint := Text.not_mem_of_mem_split hp
  have hne : part ≠ [] := fun hn => h.parts (hn ▸ hp)
  have hhere : part ≠ "." := by
    rintro rfl
    exact hpoint (by decide)
  refine ⟨⟨?_, fun hs => h.flat.1 (Text.mem_of_mem_split hp hs)⟩, ?_⟩
  · simp [FilePath.isSegment, hne, hhere]
  · rintro rfl
    exact hpoint (by decide)

/-- The name of the class and a suffix take at least three code points. -/
theorem isWhole_name (h : c.IsOrdinary suffix) :
    FilePath.IsWhole (c.qualname ++ suffix) ∧ c.qualname ++ suffix ≠ FilePath.upward := by
  have hnamed : 0 < c.qualname.length := List.length_pos_iff.mpr h.named
  have hlength : 3 ≤ (c.qualname ++ suffix).length := by
    have htwo := h.two_le_length
    rw [List.length_append]
    omega
  have hne (t : Text) (ht : t.length < 3) : c.qualname ++ suffix ≠ t := by
    rintro rfl
    omega
  refine ⟨⟨?_, ?_⟩, hne _ (by decide)⟩
  · simp only [FilePath.isSegment, Bool.and_eq_true, Bool.not_eq_true', decide_eq_true_eq,
      List.isEmpty_eq_false_iff]
    exact ⟨hne [] (by decide), hne _ (by decide)⟩
  · rw [List.mem_append, not_or]
    exact h.flat.2

end IsOrdinary

/-- The default location of an ordinary class is canonical. -/
theorem clean_defaultLocation_of_isOrdinary (h : c.IsOrdinary suffix) :
    Location.clean (c.defaultLocation suffix) = c.defaultLocation suffix := by
  obtain ⟨hwhole, hup⟩ := h.isWhole_name
  unfold defaultLocation inOwnPackage
  rcases packagePath_cases c with hpackage | ⟨parts, hne, hpackage, hparts⟩
  · have hclean : Location.CleanAfter Location.classPathScheme (c.qualname ++ suffix) :=
      Location.cleanAfter_join (List.cons_ne_nil _ [])
        (by simpa using hwhole) (by simpa using hup.symm)
    rw [hpackage, List.isEmpty_nil, if_pos rfl]
    exact Location.clean_classPath_eq_iff.mpr (.inr hclean)
  · have hpart : ∀ part ∈ parts, FilePath.IsWhole part ∧ part ≠ FilePath.upward :=
      fun part hp => h.isWhole_part (hparts hp)
    have hpath : c.packagePath ++ slash :: (c.qualname ++ suffix) =
        Text.join [slash] (parts ++ [c.qualname ++ suffix]) := by
      rw [Text.join_concat _ _ hne, hpackage, List.append_assoc]
      rfl
    have hclean : Location.CleanAfter Location.classPathScheme
        (c.packagePath ++ slash :: (c.qualname ++ suffix)) := by
      rw [hpath]
      refine Location.cleanAfter_join (by simp) (fun name hn => ?_) (fun hn => ?_)
      · rcases List.mem_append.mp hn with hn | hn
        · exact (hpart name hn).1
        · rwa [List.mem_singleton.mp hn]
      · rcases List.mem_append.mp hn with hn | hn
        · exact (hpart _ hn).2 rfl
        · exact hup (List.mem_singleton.mp hn).symm
    have hpackageNe : c.packagePath.isEmpty = false := by
      obtain ⟨first, rest, hjoin, -⟩ := FilePath.join_eq_cons hne fun part hp => (hpart part hp).1
      rw [hpackage, hjoin]
      rfl
    rw [hpackageNe, if_neg Bool.false_ne_true, List.append_assoc]
    exact Location.clean_classPath_eq_iff.mpr (.inr hclean)

end TestClass

end PropertyLayers
