import Mathlib
import PropertyLayers.Hierarchy.Basic
import PropertyLayers.Proofs.Declaration.Raised
import PropertyLayers.Proofs.Hierarchy.Composed
import PropertyLayers.Resource.ClassPath

/-!
# Classes with a single base

A new class with one base is linearized as itself and then the linearization of the base
(`order_define_single`). So what is merged for a class that declares nothing is what is merged for
its base, and a class that declares something has it put behind what is merged for the base
(`mergeDeclarations_single_base`). There is one way out: the search for the default resource of the
class may make a package known that is the module of an ancestor, and then the ancestor is taken to
be in that package (`mergeDeclarations_moves_base`).
-/

namespace PropertyLayers

namespace Linearization

variable {α : Type} [DecidableEq α]

/-- A list without duplicates, beside a list that is used up, is merged to itself. -/
theorem mergeIn_single : ∀ {steps : Nat} {order : List α}, order.Nodup → order.length ≤ steps →
    mergeIn steps [order, []] = some order
  | 0, order, _, hl => by
    have horder : order = [] := List.length_eq_zero_iff.mp (Nat.le_zero.mp hl)
    rw [horder]
    rfl
  | steps + 1, [], _, _ => rfl
  | steps + 1, x :: order, hn, hl => by
    obtain ⟨hx, hn⟩ := List.nodup_cons.mp hn
    have ih := mergeIn_single hn (Nat.le_of_succ_le_succ hl)
    have hnext : next? [x :: order, []] = some x := by simp [next?, hx]
    have hrest : [x :: order, []].map (without x) = [order, []] := by simp [without]
    rw [mergeIn, if_neg (by simp), hnext, Option.bind_eq_bind, Option.bind_some, hrest, ih]
    rfl

theorem linearize_single {c b : α} {orderOf : α → List α} {above : List α}
    (hb : orderOf b = b :: above) (hn : (orderOf b).Nodup) :
    linearize c [b] orderOf = some (c :: orderOf b) := by
  rw [hb] at hn
  obtain ⟨hx, hn⟩ := List.nodup_cons.mp hn
  have hnext : next? [b :: above, [b]] = some b := by simp [next?, hx]
  have hrest : [b :: above, [b]].map (without b) = [above, []] := by simp [without]
  have hmerge : mergeIn (above.length + 2) [b :: above, [b]] = some (b :: above) := by
    rw [mergeIn, if_neg (by simp), hnext, Option.bind_eq_bind, Option.bind_some, hrest,
      mergeIn_single hn (Nat.le_succ _)]
    rfl
  have horders : [b].map orderOf ++ [[b]] = [b :: above, [b]] := by simp [hb]
  have hsteps : [b :: above, [b]].flatten.length = above.length + 2 := by simp
  rw [linearize, if_pos (List.nodup_singleton b)]
  simp only [horders, hsteps, hmerge, hb, Option.map_some]

end Linearization

/-- That these packages are known says nothing new of the class. -/
def TestClass.UnmovedBy (packages : List Text) (c : TestClass) : Prop :=
  c.module ∈ packages → c.inPackage

theorem TestClass.amid_append {packages known : List Text} {c : TestClass}
    (h : c.UnmovedBy packages) : c.amid (packages ++ known) = c.amid known := by
  unfold amid
  by_cases hm : c.module ∈ packages
  · simp [h hm]
  · simp [hm]

namespace Level

variable {loader : Loader} {suffix : Text} {packages known : List Text} {level : Level}

theorem lead_mem (level : Level) : level.lead ∈ level.declarations :=
  mem_ordered.mp (List.head_mem level.ordered_ne_nil)

theorem defaultLocation_append (h : level.lead.declaring.UnmovedBy packages) :
    level.defaultLocation suffix (packages ++ known) = level.defaultLocation suffix known := by
  rw [defaultLocation, TestClass.amid_append h]
  rfl

theorem defaultLocation?_append (h : level.lead.declaring.UnmovedBy packages) :
    level.defaultLocation? suffix (packages ++ known) = level.defaultLocation? suffix known := by
  rw [defaultLocation?, defaultLocation_append h]
  rfl

theorem knownAfter_append (h : level.lead.declaring.UnmovedBy packages) :
    level.knownAfter loader suffix (packages ++ known) =
      packages ++ level.knownAfter loader suffix known := by
  rw [knownAfter, defaultLocation?_append h, List.append_assoc]
  rfl

theorem fold_append (h : level.lead.declaring.UnmovedBy packages) :
    level.fold loader suffix (packages ++ known) = level.fold loader suffix known := by
  simp only [fold, defaultLocation?_append h, knownAfter_append h, defaultLocation_append h]

theorem foldAll_append :
    ∀ {levels : List Level} {known : List Text},
      (∀ level ∈ levels, level.lead.declaring.UnmovedBy packages) →
        foldAll loader suffix (packages ++ known) levels = foldAll loader suffix known levels
  | [], _, _ => rfl
  | level :: ancestors, known, h => by
    have hlevel := h level List.mem_cons_self
    have hrest : ∀ l ∈ ancestors, l.lead.declaring.UnmovedBy packages :=
      fun l hl => h l (List.mem_cons_of_mem level hl)
    rw [foldAll, foldAll, fold_append hlevel, knownAfter_append hlevel, foldAll_append hrest]

theorem foldl_knownAfter_append :
    ∀ {levels : List Level} {known : List Text},
      (∀ level ∈ levels, level.lead.declaring.UnmovedBy packages) →
        levels.foldl (knownAfter loader suffix) (packages ++ known) =
          packages ++ levels.foldl (knownAfter loader suffix) known
  | [], _, _ => rfl
  | level :: ancestors, known, h => by
    rw [List.foldl_cons, List.foldl_cons, knownAfter_append (h level List.mem_cons_self)]
    exact foldl_knownAfter_append fun l hl => h l (List.mem_cons_of_mem level hl)

theorem declaring_of_foldAll :
    ∀ {levels : List Level} {known : List Text} {folded : List FoldedLevel},
      foldAll loader suffix known levels = .ok folded →
        ∀ f ∈ folded, ∃ level ∈ levels, f.declaring = level.lead.declaring
  | [], _, folded, h => by
    cases h
    simp
  | level :: ancestors, known, folded, h => by
    rw [foldAll] at h
    rcases hf : level.fold loader suffix known with failure | first <;> rw [hf] at h
    · cases h
    rcases ho : foldAll loader suffix (level.knownAfter loader suffix known) ancestors with
      failure | others <;> rw [ho] at h
    · cases h
    cases h
    intro f hm
    rcases List.mem_cons.mp hm with rfl | hm
    · exact ⟨level, List.mem_cons_self, (foldsTo_of_fold hf).lead_declaring.symm⟩
    · obtain ⟨other, ho, he⟩ := declaring_of_foldAll ho f hm
      exact ⟨other, List.mem_cons_of_mem level ho, he⟩

/-- The ancestors are folded with what the own level has made known, which moves none of them. -/
theorem foldAll_cons_raised {own : Level} {levels : List Level} {folded : FoldedLevel}
    {others : List FoldedLevel} (hfold : own.fold loader suffix [] = .ok folded)
    (hleads : ∀ level ∈ levels,
      level.lead.declaring.UnmovedBy (own.knownAfter loader suffix []))
    (hothers : foldAll loader suffix [] levels = .ok others) :
    foldAll loader suffix [] (own :: levels.map raised) =
      .ok (folded :: others.map FoldedLevel.raised) := by
  have hraised : foldAll loader suffix (own.knownAfter loader suffix []) (levels.map raised) =
      .ok (others.map FoldedLevel.raised) := by
    have h := foldAll_raised loader suffix levels (own.knownAfter loader suffix [] ++ [])
    rw [foldAll_append hleads, hothers, List.append_nil] at h
    exact h.eq_ok
  rw [foldAll, hfold]
  show (do return folded :: (← foldAll loader suffix _ _) : Except Failure _) = _
  rw [hraised]
  rfl

theorem knownAfterAll_cons_raised {own : Level} {levels : List Level}
    (hleads : ∀ level ∈ levels,
      level.lead.declaring.UnmovedBy (own.knownAfter loader suffix [])) :
    knownAfterAll loader suffix (own :: levels.map raised) =
      own.knownAfter loader suffix [] ++ knownAfterAll loader suffix levels := by
  rw [knownAfterAll, List.foldl_cons, foldl_knownAfter_raised, knownAfterAll,
    ← foldl_knownAfter_append hleads, List.append_nil]

end Level

namespace FoldedLevel

theorem mergeLocations_map_raised (packages : List Text) :
    ∀ levels : List FoldedLevel,
      mergeLocations ((levels.map raised).map (amid packages)) =
        mergeLocations (levels.map (amid packages))
  | [] => rfl
  | level :: ancestors => by
    have ih := mergeLocations_map_raised packages ancestors
    simp only [List.map_cons, mergeLocations, ih]
    rfl

theorem mergeProperties_map_raised (packages : List Text) :
    ∀ levels : List FoldedLevel,
      mergeProperties ((levels.map raised).map (amid packages)) =
        mergeProperties (levels.map (amid packages))
  | [] => rfl
  | level :: ancestors => by
    have ih := mergeProperties_map_raised packages ancestors
    simp only [List.map_cons, mergeProperties, ih]
    rfl

theorem amid_append {packages known : List Text} {level : FoldedLevel}
    (h : level.declaring.UnmovedBy packages) :
    level.amid (packages ++ known) = level.amid known := by
  rw [amid, amid, TestClass.amid_append h]

/-- What folded levels are merged to, once these packages are known. -/
def merged (packages : List Text) (levels : List FoldedLevel) : MergedSources :=
  ⟨mergeLocations (levels.map (amid packages)), mergeProperties (levels.map (amid packages))⟩

theorem merged_map_raised (packages : List Text) (levels : List FoldedLevel) :
    merged packages (levels.map raised) = merged packages levels := by
  rw [merged, mergeLocations_map_raised, mergeProperties_map_raised]
  rfl

/-- What a level comes to behind what is merged for its ancestors, once these packages are known. -/
def behind (own : FoldedLevel) (packages : List Text) (ancestors : MergedSources) :
    MergedSources where
  locations := (if own.inheritLocations then ancestors.locations else [])
    ++ own.locations.map (own.declaring.amid packages).canonical
  properties := (if own.inheritProperties then ancestors.properties else []) ++ own.properties

theorem merged_cons (packages : List Text) (own : FoldedLevel) (levels : List FoldedLevel) :
    merged packages (own :: levels) = own.behind packages (merged packages levels) := rfl

theorem merged_append {packages known : List Text} {levels : List FoldedLevel}
    (h : ∀ level ∈ levels, level.declaring.UnmovedBy packages) :
    merged (packages ++ known) levels = merged known levels := by
  have hmap : levels.map (amid (packages ++ known)) = levels.map (amid known) :=
    List.map_congr_left fun level hl => amid_append (h level hl)
  rw [merged, merged, hmap]

end FoldedLevel

theorem merged_foldAll_raised {loader : Loader} {suffix : Text} (packages known : List Text)
    (levels : List Level) :
    SameButNumber
      ((Level.foldAll loader suffix known (levels.map Level.raised)).map
        (FoldedLevel.merged packages))
      ((Level.foldAll loader suffix known levels).map (FoldedLevel.merged packages)) := by
  have h := (Level.foldAll_raised loader suffix levels known).map (FoldedLevel.merged packages)
  have hmap : ∀ x : Except Failure (List FoldedLevel),
      (x.map (List.map FoldedLevel.raised)).map (FoldedLevel.merged packages) =
        x.map (FoldedLevel.merged packages) := by
    intro x
    cases x with
    | error failure => rfl
    | ok folded => exact congrArg Except.ok (FoldedLevel.merged_map_raised packages folded)
  rwa [hmap] at h

theorem mergeDeclarations_eq_map (loader : Loader) (suffix : Text)
    (declarations : List Declaration) :
    mergeDeclarations loader suffix declarations =
      (Level.foldAll loader suffix [] (Declaration.levels declarations)).map
        (FoldedLevel.merged
          (Level.knownAfterAll loader suffix (Declaration.levels declarations))) := by
  rcases h : Level.foldAll loader suffix [] (Declaration.levels declarations) with failure | folded
  · exact mergeDeclarations_of_error h
  · simp only [mergeDeclarations, h]
    rfl

namespace Hierarchy

variable {h : Hierarchy} {b c : TestClass}

/-- A new class with one base is linearized as itself and then the linearization of the base. -/
theorem order_define_single {above : List TestClass} (hb : h.order b = b :: above)
    (hn : (h.order b).Nodup) (hc : h.get? c = none) (hne : b ≠ c) :
    ∃ h', h.define c [b] = some h' ∧ h'.order c = c :: h'.order b := by
  have hlinear : Linearization.linearize c [b] h.order = some (c :: h.order b) :=
    Linearization.linearize_single hb hn
  let defined : Hierarchy := ⟨h.records ++ [⟨c, c :: h.order b, []⟩]⟩
  have hdefine : h.define c [b] = some defined := by
    rw [define, hlinear]
    rfl
  have hnew : defined.get? c = some ⟨c, c :: h.order b, []⟩ := by
    unfold get? at hc
    simp [defined, get?, List.find?_append, hc]
  have hold : defined.get? b = h.get? b := by
    simp [defined, get?, List.find?_append, hne.symm]
  refine ⟨defined, hdefine, ?_⟩
  rw [order, order, hnew, hold]
  rfl

/-- The level of what a class declares itself, if it does. -/
def ownLevel? (h : Hierarchy) (c : TestClass) : Option Level :=
  if hne : h.declarationsAt c 0 ≠ [] then some ⟨0, h.declarationsAt c 0, hne⟩ else none

theorem declarations_single_base (horder : h.order c = c :: h.order b) :
    h.declarations c = h.declarationsAt c 0 ++ (h.declarations b).map Declaration.raised := by
  have hraised : ∀ p : TestClass × Nat,
      (h.declarationsAt p.1 p.2).map Declaration.raised = h.declarationsAt p.1 (p.2 + 1) := by
    intro p
    rw [declarationsAt, declarationsAt, List.map_map]
    rfl
  rw [declarations, horder, List.zipIdx_cons, List.flatMap_cons, List.zipIdx_succ, List.flatMap_map,
    declarations, List.map_flatMap]
  simp only [hraised]

variable {loader : Loader} {suffix : Text}

theorem mergeDeclarations_of_undeclared (horder : h.order c = c :: h.order b)
    (hnone : h.attachments c = []) :
    SameButNumber (mergeDeclarations loader suffix (h.declarations c))
      (mergeDeclarations loader suffix (h.declarations b)) := by
  have hraised : h.declarations c = (h.declarations b).map Declaration.raised := by
    rw [declarations_single_base horder, declarationsAt, hnone]
    rfl
  rw [mergeDeclarations_eq_map, mergeDeclarations_eq_map, hraised, Declaration.levels_map_raised,
    Level.knownAfterAll, Level.foldl_knownAfter_raised, ← Level.knownAfterAll]
  exact merged_foldAll_raised _ _ _

theorem declarations_of_ownLevel? (horder : h.order c = c :: h.order b) {own : Level}
    (hown : h.ownLevel? c = some own) :
    own.index = 0 ∧ (∀ d ∈ own.declarations, d.level = 0)
      ∧ h.declarations c = own.declarations ++ (h.declarations b).map Declaration.raised := by
  unfold ownLevel? at hown
  split at hown
  · cases hown
    refine ⟨rfl, fun d hd => ?_, declarations_single_base horder⟩
    obtain ⟨attachment, -, rfl⟩ := List.mem_map.mp hd
    rfl
  · cases hown

theorem mergeDeclarations_of_declared (horder : h.order c = c :: h.order b) {own : Level}
    {folded : FoldedLevel} {merged : MergedSources} (hown : h.ownLevel? c = some own)
    (hfold : own.fold loader suffix [] = .ok folded)
    (hunmoved : ∀ d ∈ h.declarations b,
      d.declaring.UnmovedBy (own.knownAfter loader suffix []))
    (hmerged : mergeDeclarations loader suffix (h.declarations b) = .ok merged) :
    mergeDeclarations loader suffix (h.declarations c) =
      .ok (folded.behind
        (Level.knownAfterAll loader suffix (Declaration.levels (h.declarations c))) merged) := by
  obtain ⟨hindex, hlevel, hdeclarations⟩ := declarations_of_ownLevel? horder hown
  have hlevels : Declaration.levels (h.declarations c) =
      own :: (Declaration.levels (h.declarations b)).map Level.raised := by
    rw [hdeclarations, Declaration.levels_own_append hindex hlevel]
  have hleads : ∀ level ∈ Declaration.levels (h.declarations b),
      level.lead.declaring.UnmovedBy (own.knownAfter loader suffix []) := by
    intro level hl
    have grouping := Declaration.grouping_levels (h.declarations b)
    exact hunmoved level.lead ((grouping.mem_iff hl).mp level.lead_mem).1
  rw [mergeDeclarations_eq_map] at hmerged
  rw [mergeDeclarations_eq_map, hlevels]
  generalize Declaration.levels (h.declarations b) = levels at hmerged hleads
  rcases hbase : Level.foldAll loader suffix [] levels with failure | others <;>
    rw [hbase] at hmerged
  · cases hmerged
  cases hmerged
  have hunmoved : ∀ f ∈ others, f.declaring.UnmovedBy (own.knownAfter loader suffix []) := by
    intro f hf
    obtain ⟨level, hl, he⟩ := Level.declaring_of_foldAll hbase f hf
    rw [he]
    exact hleads level hl
  rw [Level.foldAll_cons_raised hfold hleads hbase, Level.knownAfterAll_cons_raised hleads]
  refine congrArg Except.ok ?_
  rw [FoldedLevel.merged_cons, FoldedLevel.merged_map_raised, FoldedLevel.merged_append hunmoved]

/-- What is merged for a class with one base, from what is merged for the base. -/
theorem mergeDeclarations_single_base (horder : h.order c = c :: h.order b) (loader : Loader)
    (suffix : Text) :
    (h.attachments c = [] →
        SameButNumber (mergeDeclarations loader suffix (h.declarations c))
          (mergeDeclarations loader suffix (h.declarations b)))
      ∧ ∀ own folded merged, h.ownLevel? c = some own →
        own.fold loader suffix [] = .ok folded →
        (∀ d ∈ h.declarations b, d.declaring.UnmovedBy (own.knownAfter loader suffix [])) →
        mergeDeclarations loader suffix (h.declarations b) = .ok merged →
        mergeDeclarations loader suffix (h.declarations c) =
          .ok (folded.behind
            (Level.knownAfterAll loader suffix (Declaration.levels (h.declarations c))) merged) :=
  ⟨mergeDeclarations_of_undeclared horder,
    fun _ _ _ hown hfold hunmoved hmerged =>
      mergeDeclarations_of_declared horder hown hfold hunmoved hmerged⟩

/-! ## A base that is moved -/

def baseCase : TestClass := ⟨"pkg", "A", [], false⟩

def derivedCase : TestClass := ⟨"pkg.m", "B", [], false⟩

def locatedDeclaration (level : Nat) : Declaration :=
  ⟨⟨["x.properties"], [], true, true, 0⟩, baseCase, level⟩

/-- The base names a resource, the other class has an attachment as given. -/
def packageHierarchy (own : Attachment) : Hierarchy :=
  ⟨[⟨baseCase, [baseCase], [(locatedDeclaration 0).toAttachment]⟩,
    ⟨derivedCase, [derivedCase, baseCase], [own]⟩]⟩

/-- The derived class is new above the base, and what it is given does not move it. -/
theorem order_derivedCase (own : Attachment) :
    (packageHierarchy own).order derivedCase =
      derivedCase :: (packageHierarchy own).order baseCase := by
  let base : Hierarchy := ⟨[⟨baseCase, [baseCase], [(locatedDeclaration 0).toAttachment]⟩]⟩
  have hbase : base.order baseCase = [baseCase] := rfl
  obtain ⟨defined, hdefine, horder⟩ := order_define_single hbase (by simp [hbase])
    (c := derivedCase) rfl (by decide)
  have hgiven : packageHierarchy own = defined.attach derivedCase (.single own) := by
    cases hdefine
    rfl
  rw [hgiven, order_attach, order_attach, horder]

def derivedLevel (own : Attachment) : Level :=
  ⟨0, [⟨own, derivedCase, 0⟩], List.cons_ne_nil _ _⟩

def locatedLevel : Level := ⟨1, [locatedDeclaration 1], List.cons_ne_nil _ _⟩

/-- The package `pkg` under the root `lib`, with a resource for the derived class. -/
def packageTree : FileTree :=
  let file (name : String) : Bytes × Node := (((nameBytes? name).getD []), .file [])
  let directory (name : String) (entries : List (Bytes × Node)) : Bytes × Node :=
    (((nameBytes? name).getD []), .directory entries)
  ⟨.directory [directory "lib" [directory "pkg" [file "__init__.py", file "B.properties"]]],
    FilePath.ofText "/", FilePath.ofText "/"⟩

def packageLoader : Loader :=
  ClassPath.loader { searchPaths := [], modules := ⟨packageTree, [FilePath.ofText "/lib"], []⟩ }

theorem mergeDeclarations_baseCase (own : Attachment) :
    mergeDeclarations packageLoader ".properties" ((packageHierarchy own).declarations baseCase) =
      .ok ⟨["classpath:x.properties"], []⟩ := by
  have hdeclarations : (packageHierarchy own).declarations baseCase = [locatedDeclaration 0] := by
    cbv
  rw [hdeclarations]
  cbv

theorem mergeDeclarations_single_base_inlined :
    let h := packageHierarchy ⟨[], ["k=1"], true, true, 0⟩
    h.order derivedCase = derivedCase :: h.order baseCase
      ∧ mergeDeclarations packageLoader ".properties" (h.declarations derivedCase) =
        .ok ⟨["classpath:x.properties"], ["k=1"]⟩ := by
  intro h
  have hfold : (derivedLevel ⟨[], ["k=1"], true, true, 0⟩).fold packageLoader ".properties" [] =
      .ok ⟨derivedCase, 0, [], ["k=1"], true, true⟩ := by cbv
  have hknown : (derivedLevel ⟨[], ["k=1"], true, true, 0⟩).knownAfter packageLoader ".properties"
      [] = [] := by cbv
  have hunmoved : ∀ d ∈ h.declarations baseCase, d.declaring.UnmovedBy
      ((derivedLevel ⟨[], ["k=1"], true, true, 0⟩).knownAfter packageLoader ".properties" []) := by
    intro d _ hm
    rw [hknown] at hm
    exact absurd hm List.not_mem_nil
  have horder := order_derivedCase ⟨[], ["k=1"], true, true, 0⟩
  exact ⟨horder, (mergeDeclarations_single_base horder packageLoader ".properties").2 _ _ _ rfl
    hfold hunmoved (mergeDeclarations_baseCase _)⟩

theorem fold_derivedLevel :
    (derivedLevel ⟨[], [], true, true, 0⟩).fold packageLoader ".properties" [] =
      .ok ⟨derivedCase, 0, ["classpath:pkg/B.properties"], [], true, true⟩ := by cbv

theorem knownAfter_derivedLevel :
    (derivedLevel ⟨[], [], true, true, 0⟩).knownAfter packageLoader ".properties" [] =
      [Text.ofString "pkg"] := by
  have hasked : (derivedLevel ⟨[], [], true, true, 0⟩).defaultLocation? ".properties" [] =
      some "classpath:pkg/B.properties" := by cbv
  have hdiscovers : packageLoader.discovers "classpath:pkg/B.properties" =
      [Text.ofString "pkg"] := by cbv
  simp [Level.knownAfter, hasked, hdiscovers]

theorem fold_locatedLevel :
    locatedLevel.fold packageLoader ".properties" [Text.ofString "pkg"] =
      .ok ⟨baseCase, 1, ["x.properties"], [], true, true⟩ := by cbv

theorem knownAfter_locatedLevel :
    locatedLevel.knownAfter packageLoader ".properties" [Text.ofString "pkg"] =
      [Text.ofString "pkg"] := by cbv

theorem mergeDeclarations_derivedCase :
    mergeDeclarations packageLoader ".properties"
        ((packageHierarchy ⟨[], [], true, true, 0⟩).declarations derivedCase) =
      .ok ⟨["classpath:pkg/x.properties", "classpath:pkg/B.properties"], []⟩ := by
  have hlevels : Declaration.levels
      ((packageHierarchy ⟨[], [], true, true, 0⟩).declarations derivedCase) =
        [derivedLevel ⟨[], [], true, true, 0⟩, locatedLevel] := by cbv
  have hall : Level.foldAll packageLoader ".properties" []
      [derivedLevel ⟨[], [], true, true, 0⟩, locatedLevel] =
        .ok [⟨derivedCase, 0, ["classpath:pkg/B.properties"], [], true, true⟩,
          ⟨baseCase, 1, ["x.properties"], [], true, true⟩] := by
    rw [Level.foldAll, fold_derivedLevel, Level.foldAll, knownAfter_derivedLevel, fold_locatedLevel]
    rfl
  have hknown : Level.knownAfterAll packageLoader ".properties"
      [derivedLevel ⟨[], [], true, true, 0⟩, locatedLevel] = [Text.ofString "pkg"] := by
    rw [Level.knownAfterAll, List.foldl_cons, knownAfter_derivedLevel, List.foldl_cons,
      knownAfter_locatedLevel]
    rfl
  rw [mergeDeclarations_of_ok (hlevels ▸ hall), hlevels, hknown]
  cbv

/-- The search for the default resource of the derived class makes `pkg` known as a package. So the
resource of the base, which stands beside `pkg` for the base alone, is then one inside of it. -/
theorem mergeDeclarations_moves_base :
    let h := packageHierarchy ⟨[], [], true, true, 0⟩
    h.order derivedCase = derivedCase :: h.order baseCase
      ∧ ∃ own folded merged, h.ownLevel? derivedCase = some own
        ∧ own.fold packageLoader ".properties" [] = .ok folded
        ∧ mergeDeclarations packageLoader ".properties" (h.declarations baseCase) = .ok merged
        ∧ ∀ packages,
          mergeDeclarations packageLoader ".properties" (h.declarations derivedCase) ≠
            .ok (folded.behind packages merged) := by
  intro h
  refine ⟨order_derivedCase _, _, _, _, rfl, fold_derivedLevel, mergeDeclarations_baseCase _,
    fun packages he => ?_⟩
  rw [mergeDeclarations_derivedCase] at he
  have hfirst : some (Text.ofString "classpath:pkg/x.properties") =
      some (Text.ofString "classpath:x.properties") :=
    congrArg (fun r => r.toOption.bind fun m => m.locations.head?) he
  revert hfirst
  decide

end Hierarchy

end PropertyLayers
