import PropertyLayers.Proofs.Declaration.Folding
import PropertyLayers.Proofs.Declaration.Rearrangement

/-!
# What a level comes to

The declarations of a level are taken in the one order by descending distance that leaves those of
one distance as they are given (`byDistance_ordered`, `ByDistance.eq`). A level whose declarations
do not agree fails, with the first that differs from the leading one; a level that agrees comes to
what its declarations hold, one after the other; and one that agrees and holds nothing comes to what
the loader says of its default resource. `FoldsInto` says this of the declarations alone, and
folding does exactly that (`fold_complete`).
-/

namespace PropertyLayers

/-- The declarations from the furthest to the closest, those of one distance in the order given. -/
structure ByDistance (given sorted : List Declaration) : Prop where
  descending : sorted.Pairwise fun a b => b.distance ≤ a.distance
  stable : ∀ k, (sorted.filter fun d => d.distance = k) = given.filter fun d => d.distance = k

/-- There is one such order. -/
theorem ByDistance.eq {given xs ys : List Declaration} (hx : ByDistance given xs)
    (hy : ByDistance given ys) : xs = ys :=
  eq_of_descending hx.descending hy.descending fun k => (hx.stable k).trans (hy.stable k).symm

/-- The declarations say the same of their class and of what is inherited. -/
structure Declaration.Agrees (a b : Declaration) : Prop where
  declaring : a.declaring = b.declaring
  inheritLocations : a.inheritLocations = b.inheritLocations
  inheritProperties : a.inheritProperties = b.inheritProperties

/-- The first thing in which a declaration differs from the leading one, whose value is told before
that of the other. -/
inductive FirstDifference (lead d : Declaration) : Conflict → Prop
  | declaringClass : lead.declaring ≠ d.declaring →
      FirstDifference lead d (.declaringClass lead.declaring d.declaring)
  | inheritLocations : lead.declaring = d.declaring →
      lead.inheritLocations ≠ d.inheritLocations →
      FirstDifference lead d (.inheritLocations lead.inheritLocations d.inheritLocations)
  | inheritProperties : lead.declaring = d.declaring →
      lead.inheritLocations = d.inheritLocations →
      lead.inheritProperties ≠ d.inheritProperties →
      FirstDifference lead d (.inheritProperties lead.inheritProperties d.inheritProperties)

/-- Where the default resource of the class is looked for once these packages are known. -/
def Declaration.defaultLocation (d : Declaration) (suffix : Text) (known : List Text) : Text :=
  (d.declaring.amid known).defaultLocation suffix

/-- The first declaration that differs from the leading one, and the first thing in which it does. -/
structure FirstConflict (lead : Declaration) (sorted : List Declaration) (d : Declaration)
    (conflict : Conflict) : Prop where
  place : ∃ before after, sorted = before ++ d :: after ∧ ∀ other ∈ before, lead.Agrees other
  difference : FirstDifference lead d conflict

namespace Level

variable {loader : Loader} {suffix : Text} {known : List Text} {level : Level}

/-- No two declarations of the level differ. -/
def Agreed (level : Level) : Prop :=
  ∀ a ∈ level.declarations, ∀ b ∈ level.declarations, a.Agrees b

/-- No declaration of the level holds anything. -/
def Blank (level : Level) : Prop :=
  ∀ d ∈ level.declarations, d.locations = [] ∧ d.properties = []

/-- What a level comes to, told by its declarations from the leading one on. The loader is asked
only where they agree and hold nothing. -/
inductive FoldsInto (loader : Loader) (suffix : Text) (known : List Text) (level : Level)
    (lead : Declaration) (rest : List Declaration) : Except Failure FoldedLevel → Prop
  | inconsistent {d : Declaration} {conflict : Conflict} :
      FirstConflict lead (lead :: rest) d conflict →
      FoldsInto loader suffix known level lead rest
        (.error (.inconsistent conflict d.declaring level.index))
  /-- The loader cannot say whether there is a default resource. -/
  | refused {failure : Failure} : level.Agreed → level.Blank →
      loader.has (lead.defaultLocation suffix known) = .error failure →
      FoldsInto loader suffix known level lead rest (.error failure)
  /-- There is no default resource. What is told is where it would be looked for by now. -/
  | missing : level.Agreed → level.Blank →
      loader.has (lead.defaultLocation suffix known) = .ok false →
      FoldsInto loader suffix known level lead rest
        (.error (.noDefaultResource lead.declaring (lead.defaultLocation suffix
          (known ++ loader.discovers (lead.defaultLocation suffix known)))))
  | detected : level.Agreed → level.Blank →
      loader.has (lead.defaultLocation suffix known) = .ok true →
      FoldsInto loader suffix known level lead rest
        (.ok
          { declaring := lead.declaring
            index := level.index
            locations := [lead.defaultLocation suffix known]
            properties := []
            inheritLocations := lead.inheritLocations
            inheritProperties := lead.inheritProperties })
  | declared : level.Agreed → ¬ level.Blank →
      FoldsInto loader suffix known level lead rest
        (.ok
          { declaring := lead.declaring
            index := level.index
            locations := (lead :: rest).flatMap fun d => d.locations
            properties := (lead :: rest).flatMap fun d => d.properties
            inheritLocations := lead.inheritLocations
            inheritProperties := lead.inheritProperties })

theorem byDistance_ordered (level : Level) : ByDistance level.declarations level.ordered where
  descending := descending_mergeSort _ level.declarations
  stable k := filter_mergeSort (descending_trans _) (descending_total _)
    (fun a b ha hb => by simp only [decide_eq_true_eq] at *; omega) level.declarations

theorem conflict?_eq_some_iff {lead d : Declaration} {conflict : Conflict} :
    conflict? lead d = some conflict ↔ FirstDifference lead d conflict := by
  unfold conflict?
  constructor
  · intro h
    split_ifs at h with hd hl hp
    · cases h
      exact .declaringClass hd
    · cases h
      exact .inheritLocations (not_not.mp hd) hl
    · cases h
      exact .inheritProperties (not_not.mp hd) (not_not.mp hl) hp
  · intro h
    cases h with
    | declaringClass hd => rw [if_pos hd]
    | inheritLocations hd hl => rw [if_neg (not_not_intro hd), if_pos hl]
    | inheritProperties hd hl hp =>
      rw [if_neg (not_not_intro hd), if_neg (not_not_intro hl), if_pos hp]

theorem conflict?_eq_none_iff_agrees {lead d : Declaration} :
    conflict? lead d = none ↔ lead.Agrees d := by
  rw [conflict?_eq_none_iff]
  exact ⟨fun ⟨hd, hl, hp⟩ => ⟨hd.symm, hl.symm, hp.symm⟩,
    fun h => ⟨h.declaring.symm, h.inheritLocations.symm, h.inheritProperties.symm⟩⟩

theorem inconsistency?_eq_some_iff {failure : Failure} :
    level.inconsistency? = some failure ↔
      ∃ d conflict, FirstConflict level.lead level.ordered d conflict
        ∧ failure = .inconsistent conflict d.declaring level.index := by
  rw [inconsistency?, List.findSome?_eq_some_iff]
  simp only [Option.map_eq_none_iff, conflict?_eq_none_iff_agrees, Option.map_eq_some_iff,
    conflict?_eq_some_iff]
  constructor
  · rintro ⟨before, d, after, hs, ⟨conflict, hd, rfl⟩, hb⟩
    exact ⟨d, conflict, ⟨⟨before, after, hs, hb⟩, hd⟩, rfl⟩
  · rintro ⟨d, conflict, ⟨⟨before, after, hs, hb⟩, hd⟩, rfl⟩
    exact ⟨before, d, after, hs, ⟨conflict, hd, rfl⟩, hb⟩

theorem inconsistency?_eq_none_iff_agreed : level.inconsistency? = none ↔ level.Agreed := by
  rw [inconsistency?_eq_none_iff]
  simp only [conflict?_eq_none_iff_agrees]
  constructor
  · intro h a ha b hb
    have hla := h a ha
    have hlb := h b hb
    exact ⟨hla.declaring.symm.trans hlb.declaring,
      hla.inheritLocations.symm.trans hlb.inheritLocations,
      hla.inheritProperties.symm.trans hlb.inheritProperties⟩
  · exact fun h d hd => h level.lead (mem_ordered.mp (List.head_mem level.ordered_ne_nil)) d hd

theorem isBlank_iff_blank : level.isBlank ↔ level.Blank := by
  rw [isBlank_iff, Blank]
  simp only [Attachment.isEmpty, Bool.and_eq_true, List.isEmpty_iff]

theorem not_agreed_iff :
    ¬ level.Agreed ↔ ∃ d conflict, FirstConflict level.lead level.ordered d conflict := by
  rw [← inconsistency?_eq_none_iff_agreed, ← ne_eq, Option.ne_none_iff_exists']
  simp only [inconsistency?_eq_some_iff]
  constructor
  · rintro ⟨_, d, conflict, h, -⟩
    exact ⟨d, conflict, h⟩
  · rintro ⟨d, conflict, h⟩
    exact ⟨_, d, conflict, h, rfl⟩

theorem ordered_eq_lead_cons : level.ordered = level.lead :: level.ordered.tail :=
  (List.cons_head_tail level.ordered_ne_nil).symm

theorem defaultLocation?_of_blank (ha : level.Agreed) (hb : level.Blank) :
    level.defaultLocation? suffix known = some (level.lead.defaultLocation suffix known) := by
  rw [defaultLocation?, inconsistency?_eq_none_iff_agreed.mpr ha, isBlank_iff_blank.mpr hb]
  rfl

/-- A level whose declarations differ or hold something needs no default resource. -/
theorem defaultLocation?_eq_none (h : ¬ (level.Agreed ∧ level.Blank)) :
    level.defaultLocation? suffix known = none := by
  rw [defaultLocation?, if_neg]
  rw [Bool.and_eq_true, Option.isNone_iff_eq_none, inconsistency?_eq_none_iff_agreed,
    isBlank_iff_blank]
  exact h

theorem knownAfter_of_blank (ha : level.Agreed) (hb : level.Blank) :
    level.knownAfter loader suffix known
      = known ++ loader.discovers (level.lead.defaultLocation suffix known) := by
  rw [knownAfter, defaultLocation?_of_blank ha hb, Option.toList_some, List.flatMap_singleton]

theorem properties_ordered_of_blank (hb : level.Blank) :
    (level.ordered.flatMap fun d => d.properties) = [] := by
  rw [List.flatMap_eq_nil_iff]
  exact fun d hd => (hb d (mem_ordered.mp hd)).2

theorem FoldsInto.fold_eq {result : Except Failure FoldedLevel}
    (h : level.FoldsInto loader suffix known level.lead level.ordered.tail result) :
    level.fold loader suffix known = result := by
  unfold fold
  cases h with
  | inconsistent hc =>
    rw [← ordered_eq_lead_cons] at hc
    rw [inconsistency?_eq_some_iff.mpr ⟨_, _, hc, rfl⟩]
  | refused ha hb hl =>
    rw [inconsistency?_eq_none_iff_agreed.mpr ha, defaultLocation?_of_blank ha hb]
    simp only [hl]
  | missing ha hb hl =>
    rw [inconsistency?_eq_none_iff_agreed.mpr ha, defaultLocation?_of_blank ha hb]
    simp only [hl, knownAfter_of_blank ha hb]
    rfl
  | detected ha hb hl =>
    rw [inconsistency?_eq_none_iff_agreed.mpr ha, defaultLocation?_of_blank ha hb]
    simp only [hl, properties_ordered_of_blank hb]
  | declared ha hb =>
    rw [inconsistency?_eq_none_iff_agreed.mpr ha, defaultLocation?_eq_none fun h => hb h.2,
      ← ordered_eq_lead_cons]

theorem exists_foldsInto (loader : Loader) (suffix : Text) (known : List Text) (level : Level) :
    ∃ result, level.FoldsInto loader suffix known level.lead level.ordered.tail result := by
  by_cases ha : level.Agreed
  · by_cases hb : level.Blank
    · rcases hl : loader.has (level.lead.defaultLocation suffix known) with failure | _ | _
      · exact ⟨_, .refused ha hb hl⟩
      · exact ⟨_, .missing ha hb hl⟩
      · exact ⟨_, .detected ha hb hl⟩
    · exact ⟨_, .declared ha hb⟩
  · obtain ⟨d, conflict, hc⟩ := not_agreed_iff.mp ha
    rw [ordered_eq_lead_cons] at hc
    exact ⟨_, .inconsistent hc⟩

theorem fold_eq_iff {result : Except Failure FoldedLevel} :
    level.fold loader suffix known = result ↔
      level.FoldsInto loader suffix known level.lead level.ordered.tail result := by
  constructor
  · rintro rfl
    obtain ⟨result, hr⟩ := exists_foldsInto loader suffix known level
    rwa [hr.fold_eq]
  · exact FoldsInto.fold_eq

/-- Folding asks the loader for nothing but the default resource of a level that agrees and holds
nothing. -/
theorem fold_congr {other : Loader}
    (h : level.Agreed → level.Blank →
      other.has (level.lead.defaultLocation suffix known)
          = loader.has (level.lead.defaultLocation suffix known)
        ∧ other.discovers (level.lead.defaultLocation suffix known)
          = loader.discovers (level.lead.defaultLocation suffix known)) :
    level.fold other suffix known = level.fold loader suffix known
      ∧ level.knownAfter other suffix known = level.knownAfter loader suffix known := by
  by_cases hab : level.Agreed ∧ level.Blank
  · obtain ⟨hhas, hdiscovers⟩ := h hab.1 hab.2
    have hknown : level.knownAfter other suffix known = level.knownAfter loader suffix known := by
      rw [knownAfter_of_blank hab.1 hab.2, knownAfter_of_blank hab.1 hab.2, hdiscovers]
    refine ⟨?_, hknown⟩
    unfold fold
    rw [defaultLocation?_of_blank hab.1 hab.2, hknown]
    simp only [hhas]
  · unfold fold knownAfter
    rw [defaultLocation?_eq_none hab]
    exact ⟨rfl, rfl⟩

/-- The declarations are taken in the one order by distance. Folding fails over the first that
differs from the leading one just where two of them differ, and comes to what they hold otherwise,
or to the default resource where they hold nothing. The loader has a say in that last case alone. -/
theorem fold_complete (loader : Loader) (suffix : Text) (known : List Text) (level : Level) :
    ∃ lead rest, ByDistance level.declarations (lead :: rest)
      ∧ (∀ sorted, ByDistance level.declarations sorted → sorted = lead :: rest)
      ∧ (∀ result, level.fold loader suffix known = result ↔
          level.FoldsInto loader suffix known lead rest result)
      ∧ ((∃ d conflict, FirstConflict lead (lead :: rest) d conflict) ↔
          ∃ a ∈ level.declarations, ∃ b ∈ level.declarations, ¬ a.Agrees b)
      ∧ ∀ other : Loader,
          (level.Agreed → level.Blank →
            other.has (lead.defaultLocation suffix known)
                = loader.has (lead.defaultLocation suffix known)
              ∧ other.discovers (lead.defaultLocation suffix known)
                = loader.discovers (lead.defaultLocation suffix known)) →
            level.fold other suffix known = level.fold loader suffix known
              ∧ level.knownAfter other suffix known = level.knownAfter loader suffix known := by
  have hsorted : ByDistance level.declarations (level.lead :: level.ordered.tail) :=
    ordered_eq_lead_cons ▸ byDistance_ordered level
  refine ⟨level.lead, level.ordered.tail, hsorted, fun sorted hs => hs.eq hsorted,
    fun result => fold_eq_iff, ?_, fun other h => fold_congr h⟩
  rw [← ordered_eq_lead_cons, ← not_agreed_iff, Agreed]
  push Not
  rfl

end Level

end PropertyLayers
