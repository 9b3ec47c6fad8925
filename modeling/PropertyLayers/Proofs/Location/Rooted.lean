import Mathlib.Data.List.Infix
import PropertyLayers.Proofs.Location.Canonical

/-!
# Locations under the roots of the class path

A path under the roots of the class path is written with a slash at its start, or with the scheme
and a slash. In the first way the path is cleaned as one that starts at the roots
(`canonical_slash`), in the second as an anchored path, which does not climb above them
(`canonical_classPath_slash`). Both come to the same where the path is one of slashes alone, or
never climbs above its start and ends below it (`canonical_rooted_iff`).
-/

namespace PropertyLayers

namespace FilePath

/-- The segments never climb above their start, and end below it. -/
def Descends (segments : List Text) : Prop :=
  (∀ before, before <+: segments → before.countP (· = upward) ≤ before.countP (· ≠ upward))
    ∧ segments.countP (· = upward) < segments.countP (· ≠ upward)

theorem forall_prefix_cons_iff {P : List Text → Prop} {segment : Text} {rest : List Text} :
    (∀ before, before <+: segment :: rest → P before) ↔
      P [] ∧ ∀ before, before <+: rest → P (segment :: before) := by
  simp only [List.prefix_cons_iff]
  constructor
  · intro h
    exact ⟨h [] (.inl rfl), fun before hb => h _ (.inr ⟨before, rfl, hb⟩)⟩
  · rintro ⟨hnil, hcons⟩ before (rfl | ⟨before, rfl, hb⟩)
    · exact hnil
    · exact hcons before hb

namespace Position

/-- A walk has come as far down, from as far up as it climbed, as it has more names than `..`. -/
theorem length_names_foldl :
    ∀ (segs : List Text) (p : Position),
      (segs.foldl goOn p).names.length + segs.countP (· = upward) + p.above =
        segs.countP (· ≠ upward) + (segs.foldl goOn p).above + p.names.length
  | [], p => by
    simp only [List.foldl_nil, List.countP_nil]
    omega
  | segment :: rest, p => by
    have ih := length_names_foldl rest (p.goOn segment)
    rw [List.foldl_cons]
    by_cases hs : segment = upward
    · subst hs
      rw [List.countP_cons_of_pos (by simp), List.countP_cons_of_neg (by simp)]
      by_cases hn : p.names = []
      · rw [goOn_upward_of_nil hn] at ih ⊢
        dsimp only at ih
        omega
      · have hpos := List.length_pos_iff.mpr hn
        rw [goOn_upward_of_ne_nil hn, List.length_dropLast] at ih
        rw [goOn_upward_of_ne_nil hn]
        dsimp only at ih
        omega
    · rw [List.countP_cons_of_neg (by simpa using hs), List.countP_cons_of_pos (by simpa using hs)]
      rw [goOn_name hs, List.length_append, List.length_singleton] at ih
      rw [goOn_name hs]
      dsimp only at ih
      omega

/-- A walk climbs above its start where it has met more `..` than there were names to take back. -/
theorem above_foldl_eq_zero_iff :
    ∀ (segs : List Text) (p : Position),
      (segs.foldl goOn p).above = 0 ↔ p.above = 0 ∧ ∀ before, before <+: segs →
        before.countP (· = upward) ≤ p.names.length + before.countP (· ≠ upward)
  | [], p => by simp
  | segment :: rest, p => by
    rw [List.foldl_cons, above_foldl_eq_zero_iff rest, forall_prefix_cons_iff]
    by_cases hs : segment = upward
    · subst hs
      have hup : ∀ before : List Text, (upward :: before).countP (· = upward) =
          before.countP (· = upward) + 1 := fun before => List.countP_cons_of_pos (by simp)
      have hdown : ∀ before : List Text, (upward :: before).countP (· ≠ upward) =
          before.countP (· ≠ upward) := fun before => List.countP_cons_of_neg (by simp)
      simp only [hup, hdown]
      by_cases hn : p.names = []
      · rw [goOn_upward_of_nil hn]
        simp only [hn, List.length_nil]
        refine iff_of_false (by simp) fun h => ?_
        have := h.2.2 [] List.nil_prefix
        simp at this
      · have hpos := List.length_pos_iff.mpr hn
        rw [goOn_upward_of_ne_nil hn]
        simp only [List.length_dropLast, List.countP_nil, Nat.zero_le, true_and]
        refine and_congr_right fun _ => forall₂_congr fun before _ => ?_
        omega
    · have hup : ∀ before : List Text, (segment :: before).countP (· = upward) =
          before.countP (· = upward) := fun before => List.countP_cons_of_neg (by simpa using hs)
      have hdown : ∀ before : List Text, (segment :: before).countP (· ≠ upward) =
          before.countP (· ≠ upward) + 1 := fun before => List.countP_cons_of_pos (by simpa using hs)
      rw [goOn_name hs]
      simp only [hup, hdown, List.length_append, List.length_singleton, List.countP_nil,
        Nat.zero_le, true_and]
      refine and_congr_right fun _ => forall₂_congr fun before _ => ?_
      omega

theorem descends_iff (segs : List Text) :
    Descends segs ↔ (walk segs).above = 0 ∧ (walk segs).names ≠ [] := by
  have hlength := length_names_foldl segs start
  have habove := above_foldl_eq_zero_iff segs start
  simp only [start, List.length_nil, true_and, Nat.zero_add] at hlength habove
  rw [Descends, walk, start, ← habove, ← List.length_pos_iff]
  refine and_congr_right fun h => ?_
  omega

/-- The way to a position and the way along its names have the same text where they are the same and
lead somewhere. -/
theorem toText_segments_eq_iff (p : Position) (h : ∀ segment ∈ p.segments, IsWhole segment) :
    toText ⟨.relative, p.segments⟩ = Text.join [slash] p.names ↔ p.above = 0 ∧ p.names ≠ [] := by
  constructor
  · intro he
    have hread := @ofText_toText ⟨.relative, p.segments⟩ h
    have hnames : (ofText (Text.join [slash] p.names)).segments = p.names :=
      segments_ofText_join fun name hm => h name (List.mem_append_right _ hm)
    rw [he] at hread
    rw [hread] at hnames
    have habove : p.above = 0 := by
      have hlength := congrArg List.length hnames
      rw [segments, List.length_append, List.length_replicate] at hlength
      omega
    refine ⟨habove, fun hn => ?_⟩
    simp [segments, habove, hn, Text.join, toText, Text.ofString] at he
  · rintro ⟨ha, hn⟩
    have hs : p.segments = p.names := by rw [segments, ha, List.replicate_zero, List.nil_append]
    rw [hs, toText_eq (.inr hn)]
    rfl

end Position

end FilePath

namespace TestClass

open FilePath (slash)

variable {c : TestClass} {p : Text}

/-- Behind a slash alone the path starts at the roots and may climb above them. -/
theorem canonical_slash (c : TestClass) (h : ¬ Location.placeholderStart.holds p) :
    c.canonical (slash :: p) = Location.classPathScheme ++
      if p.dropLeading slash = [] then []
      else FilePath.toText
        ⟨.relative, (FilePath.Position.walk (FilePath.ofText p).segments).segments⟩ := by
  have hqualify : c.qualify (slash :: p) = Location.classPathScheme ++ p.dropLeading slash := by
    rw [qualify, if_pos (List.head?_cons (a := slash) (l := p))]
    rfl
  have hholds : Location.placeholderStart.holds
      (Location.classPathScheme ++ p.dropLeading slash) = false := by
    rw [Location.holds_classPath, Location.holds_dropLeading]
    exact Bool.eq_false_iff.mpr h
  have hanchor : (FilePath.ofText (p.dropLeading slash)).anchor = .relative :=
    FilePath.anchorOf_replicate .relative (FilePath.head?_dropLeading p)
  rw [canonical, hqualify, Location.clean_of_scheme Location.isScheme_classPath hholds]
  split
  · rfl
  · have hnormal := FilePath.isNormal_normal_ofText (p.dropLeading slash)
    have hsegments := FilePath.segments_normal (FilePath.ofText (p.dropLeading slash))
    rw [if_pos hanchor, FilePath.segments_ofText_dropLeading] at hsegments
    rw [Location.cleanPath, if_pos rfl, FilePath.dropLeading_toText_relative hnormal hanchor,
      ← hsegments, ← hanchor]
    rfl

/-- Behind the scheme and a slash the path is anchored and stays below the roots. -/
theorem canonical_classPath_slash (c : TestClass) (h : ¬ Location.placeholderStart.holds p) :
    c.canonical (Location.classPathScheme ++ slash :: p) = Location.classPathScheme ++
      Text.join [slash] (FilePath.Position.walk (FilePath.ofText p).segments).names := by
  have hqualify : c.qualify (Location.classPathScheme ++ slash :: p) =
      Location.classPathScheme ++ slash :: p :=
    qualify_of_isFull (Location.isFull_of_scheme Location.isScheme_classPath _)
  have hholds : Location.placeholderStart.holds (Location.classPathScheme ++ slash :: p) = false := by
    rw [Location.holds_classPath, Location.holds_cons_of_ne (by decide)]
    exact Bool.eq_false_iff.mpr h
  have hanchor : (FilePath.ofText (slash :: p)).anchor ≠ .relative :=
    FilePath.anchorOf_slash_cons p
  have hnormal := FilePath.isNormal_normal_ofText (slash :: p)
  have hsegments := FilePath.segments_normal (FilePath.ofText (slash :: p))
  have hslash : (FilePath.ofText (slash :: p)).segments = (FilePath.ofText p).segments :=
    FilePath.segments_ofText_replicate 1 p
  rw [if_neg hanchor, hslash] at hsegments
  rw [canonical, hqualify, Location.clean_of_scheme Location.isScheme_classPath hholds,
    if_neg (List.cons_ne_nil slash p), Location.cleanPath, if_pos rfl,
    FilePath.dropLeading_toText hnormal (.inl hanchor), hsegments]

/-- The two ways to write a path under the roots come to the same exactly where the path is one of
slashes alone, or never climbs above the roots and ends below them. -/
theorem canonical_rooted_iff (c : TestClass) (h : ¬ Location.placeholderStart.holds p) :
    c.canonical (slash :: p) = c.canonical (Location.classPathScheme ++ slash :: p) ↔
      p.dropLeading slash = [] ∨ FilePath.Descends (FilePath.ofText p).segments := by
  have hwalk : ∀ segment ∈ (FilePath.Position.walk (FilePath.ofText p).segments).segments,
      FilePath.IsWhole segment := by
    have hnormal := @FilePath.isNormal_normal ⟨.relative, (FilePath.ofText p).segments⟩ fun _ =>
      FilePath.isWhole_of_mem_ofText
    have hsegments := FilePath.segments_normal ⟨.relative, (FilePath.ofText p).segments⟩
    rw [if_pos rfl] at hsegments
    exact hsegments ▸ hnormal.whole
  rw [canonical_slash c h, canonical_classPath_slash c h, List.append_cancel_left_eq,
    FilePath.Position.descends_iff]
  by_cases hp : p.dropLeading slash = []
  · have hnone : (FilePath.ofText p).segments = [] := by
      rw [← FilePath.segments_ofText_dropLeading, hp]
      rfl
    rw [if_pos hp, hnone]
    exact iff_of_true rfl (.inl hp)
  · rw [if_neg hp, or_iff_right hp]
    generalize FilePath.Position.walk (FilePath.ofText p).segments = position at hwalk
    exact position.toText_segments_eq_iff hwalk

theorem canonical_rooted_iff_plain :
    let p : Text := "/conf/../a//b.properties"
    ¬ Location.placeholderStart.holds p
      ∧ (⟨"m", "C", [], false⟩ : TestClass).canonical (slash :: p) =
        (⟨"m", "C", [], false⟩ : TestClass).canonical (Location.classPathScheme ++ slash :: p) := by
  intro p
  have h : ¬ Location.placeholderStart.holds p := by decide
  have hd : FilePath.Descends (FilePath.ofText p).segments :=
    (FilePath.Position.descends_iff _).mpr (by decide)
  exact ⟨h, (canonical_rooted_iff _ h).mpr (.inr hd)⟩

/-- Behind a slash alone `..` leads out of the roots, behind the scheme and a slash it does not. -/
theorem canonical_rooted_upward :
    let c : TestClass := ⟨"m", "C", [], false⟩
    let p : Text := "../x"
    ¬ Location.placeholderStart.holds p
      ∧ c.canonical (slash :: p) = "classpath:../x"
      ∧ c.canonical (Location.classPathScheme ++ slash :: p) = "classpath:x"
      ∧ c.canonical (slash :: p) ≠ c.canonical (Location.classPathScheme ++ slash :: p) := by
  decide

end TestClass

end PropertyLayers
