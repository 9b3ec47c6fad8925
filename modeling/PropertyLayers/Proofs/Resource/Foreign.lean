import Mathlib
import PropertyLayers.Declaration.Merge
import PropertyLayers.Environment.Application
import PropertyLayers.Proofs.Files.Walk
import PropertyLayers.Resource.ClassPath

/-!
# Foreign failures

Most failures say what is wrong with the sources. The others come from the file system, from a codec
or from importing a package. Merging fails so exactly where the search for a default resource does
(`mergeDeclarations_eq_foreign_iff`), and applying where a source cannot be made
(`failure?_applyMerged_eq_foreign_iff`). On a class path the causes are those for which a package is
not searched (`ClassPath.Fails`), and an encoding that is known but not for texts
(`source_eq_foreign_iff`).
-/

namespace PropertyLayers

/-- The failure is not one of sources. -/
def Failure.isForeign : Failure → Bool
  | .unknownEncoding _ => true
  | .notTextEncoding _ => true
  | .unanswered _ => true
  | _ => false

theorem bind_eq_error_iff {ε α β : Type} {x : Except ε α} {f : α → Except ε β} {e : ε} :
    x >>= f = .error e ↔ x = .error e ∨ ∃ a, x = .ok a ∧ f a = .error e := by
  cases x <;> simp [bind, Except.bind]

/-! ## What merging and applying make of the failures of a loader -/

section Loaders

variable {loader : Loader} {suffix encoding : Text} {failure : Failure}

end Loaders

/-! ## Foreign failures on a class path -/

theorem FileTree.hasFile_eq_error_iff {tree : FileTree} {path : FilePath} {fault : PathFault} :
    tree.hasFile path = .error fault ↔
      fault = .nameTooLong ∧ tree.node path = .error .nameTooLong := by
  unfold hasFile
  split <;> simp_all [eq_comm]

namespace ClassPath

variable {cp : ClassPath} {encoding location : Text} {failure : Failure}

/-- Why it cannot be said what a module has under the name of a resource. -/
inductive Unanswered (cp : ClassPath) (name : Text) : Module → LookupFault → Prop
  | inPackage {directory : FilePath} :
      cp.tree.TooLong (directory.child name) →
        Unanswered cp name (.package directory) .nameTooLong
  | inPortion {directories : List FilePath} {path : FilePath} : cp.refusesName name = false →
      cp.resourcePath name directories = some path → cp.tree.TooLong path →
        Unanswered cp name (.portions directories) .nameTooLong
  | nameless {directories : List FilePath} : cp.refusesName name →
      Unanswered cp name (.portions directories) .nameless
  | bare : Unanswered cp name .bare .bare
  | provided {resource : Text → Except Refusal (Option Bytes)} {refusal : Refusal} :
      resource name = .error refusal → Unanswered cp name (.provided resource) (.refused refusal)

theorem fileContent_eq_error_iff {path : FilePath} :
    cp.fileContent path = .error failure ↔
      failure = .unanswered .nameTooLong ∧ cp.tree.TooLong path := by
  rw [← FileTree.node_eq_tooLong_iff]
  unfold fileContent
  rcases hhas : cp.tree.hasFile path with fault | here
  · obtain ⟨-, hnode⟩ := FileTree.hasFile_eq_error_iff.mp hhas
    simp [hnode, eq_comm]
  · have hnode : cp.tree.node path ≠ .error .nameTooLong := by
      intro hnode
      rw [FileTree.hasFile, hnode] at hhas
      cases hhas
    simp [hnode]

theorem resourceIn_eq_error_iff {name : Text} {module : Module} :
    cp.resourceIn name module = .error failure ↔
      ∃ fault, failure = .unanswered fault ∧ cp.Unanswered name module fault := by
  constructor
  · intro h
    cases module with
    | plain => cases h
    | bare =>
      cases h
      exact ⟨_, rfl, .bare⟩
    | package directory =>
      obtain ⟨rfl, hlong⟩ := fileContent_eq_error_iff.mp h
      exact ⟨_, rfl, .inPackage hlong⟩
    | portions directories =>
      simp only [resourceIn] at h
      split at h
      · next hrefuses =>
        cases h
        exact ⟨_, rfl, .nameless hrefuses⟩
      · next hrefuses =>
        split at h
        · next path hpath =>
          obtain ⟨rfl, hlong⟩ := fileContent_eq_error_iff.mp h
          exact ⟨_, rfl, .inPortion (by simpa using hrefuses) hpath hlong⟩
        · cases h
    | provided resource =>
      simp only [resourceIn] at h
      rcases hresource : resource name with refusal | content <;> rw [hresource] at h <;> cases h
      exact ⟨_, rfl, .provided hresource⟩
  · rintro ⟨fault, rfl, hlong | ⟨hrefuses, hpath, hlong⟩ | hrefuses | _ | hresource⟩
    · exact fileContent_eq_error_iff.mpr ⟨rfl, hlong⟩
    · rw [resourceIn, if_neg (by simp [hrefuses]), hpath]
      exact fileContent_eq_error_iff.mpr ⟨rfl, hlong⟩
    · rw [resourceIn, if_pos hrefuses]
    · rfl
    · rw [resourceIn, hresource]
      rfl

/-- The location is that of a resource in a package: it has this package and this name. -/
def InPackage (location package name : Text) : Prop :=
  ∃ path, pathOf? location = some path ∧ packagePart? path = some (package, name)

/-- Why a class path does not answer for the location of a resource in a package: the import of the
package is refused, or the package cannot be searched for the name. -/
inductive Fails (cp : ClassPath) (location : Text) : LookupFault → Prop
  | refused {package name : Text} {refusal : Refusal} : InPackage location package name →
      cp.modules.importModule package = .error (.refused refusal) →
        Fails cp location (.refused refusal)
  | unanswered {package name : Text} {module : Module} {fault : LookupFault} :
      InPackage location package name → cp.modules.importModule package = .ok module →
        cp.Unanswered name module fault → Fails cp location fault

theorem packageResource_eq_error_iff {package name : Text} :
    cp.packageResource package name = .error failure ↔
      (∃ refusal, cp.modules.importModule package = .error (.refused refusal)
          ∧ failure = .unanswered (.refused refusal))
        ∨ ∃ module, cp.modules.importModule package = .ok module
          ∧ ∃ fault, failure = .unanswered fault ∧ cp.Unanswered name module fault := by
  unfold packageResource
  rcases cp.modules.importModule package with (_ | refusal) | module
  · simp
  · simp [eq_comm]
  · simp [resourceIn_eq_error_iff]

theorem findPath_eq_error_iff {path : Text} :
    cp.findPath path = .error failure ↔
      ∃ package name, packagePart? path = some (package, name)
        ∧ cp.packageResource package name = .error failure := by
  unfold findPath
  rcases hpart : packagePart? path with _ | ⟨package, name⟩
  · simp [bind, Except.bind, pure, Except.pure]
  · have hresource : (∃ p n, some (package, name) = some (p, n)
        ∧ cp.packageResource p n = .error failure) ↔
          cp.packageResource package name = .error failure := by
      simp [and_assoc]
    rw [hresource]
    rcases hp : cp.packageResource package name with stop | content <;>
      simp [hp, bind_eq_error_iff, Except.map, pure, Except.pure]

theorem find_eq_packageResource {package name : Text} (h : InPackage location package name) :
    cp.find location = .error failure ↔ cp.packageResource package name = .error failure := by
  obtain ⟨path, hpath, hpart⟩ := h
  have hne : ¬ path.isEmpty := by
    intro hempty
    rw [List.isEmpty_iff.mp hempty] at hpart
    cases hpart
  rw [find, hpath]
  simp only [if_neg hne, findPath_eq_error_iff, hpart, Option.some.injEq, Prod.mk.injEq]
  constructor
  · rintro ⟨_, _, ⟨rfl, rfl⟩, h⟩
    exact h
  · exact fun h => ⟨_, _, ⟨rfl, rfl⟩, h⟩

theorem find_eq_error_iff :
    cp.find location = .error failure ↔
      ∃ fault, failure = .unanswered fault ∧ cp.Fails location fault := by
  constructor
  · intro h
    have hpackage : ∃ package name, InPackage location package name := by
      unfold find at h
      split at h
      · next path hpath =>
        split at h
        · cases h
        · obtain ⟨package, name, hpart, -⟩ := findPath_eq_error_iff.mp h
          exact ⟨package, name, path, hpath, hpart⟩
      · cases h
    obtain ⟨package, name, hin⟩ := hpackage
    rcases packageResource_eq_error_iff.mp ((find_eq_packageResource hin).mp h) with
      ⟨refusal, himport, rfl⟩ | ⟨module, himport, fault, rfl, hfault⟩
    · exact ⟨_, rfl, .refused hin himport⟩
    · exact ⟨_, rfl, .unanswered hin himport hfault⟩
  · rintro ⟨fault, rfl, ⟨hin, himport⟩ | ⟨hin, himport, hfault⟩⟩
    · exact (find_eq_packageResource hin).mpr
        (packageResource_eq_error_iff.mpr (.inl ⟨_, himport, rfl⟩))
    · exact (find_eq_packageResource hin).mpr
        (packageResource_eq_error_iff.mpr (.inr ⟨_, himport, _, rfl, hfault⟩))

theorem has_eq_error_iff :
    cp.loader.has location = .error failure ↔
      ∃ fault, failure = .unanswered fault ∧ cp.Fails location fault := by
  rw [← find_eq_error_iff]
  rcases hfind : cp.find location with stop | hit? <;> simp [loader, hfind, Except.map]

/-- The foreign failures of making a source with a known encoding. -/
inductive Breaks (cp : ClassPath) (encoding location : Text) : Failure → Prop
  | unanswered {fault : LookupFault} :
      cp.Fails location fault → Breaks cp encoding location (.unanswered fault)
  | notText {hit : Hit} :
      cp.find location = .ok (some hit) → hit.content ≠ [] → isToml location = false →
        cp.codecs.encoding? encoding = some .notText →
          Breaks cp encoding location (.notTextEncoding encoding)

theorem Breaks.isForeign (h : cp.Breaks encoding location failure) : failure.isForeign := by
  cases h <;> rfl

end ClassPath

/-- The name stands for an encoding, be it for texts or not, and can be asked for. -/
structure Codecs.Knows (codecs : Codecs) (name : Text) : Prop where
  characters : name.hasSurrogate = false
  null_not_mem : CodePoint.ofNat 0 ∉ name
  isSome : (codecs.encoding? name).isSome

variable {codecs : Codecs} {location encoding : Text} {content : Bytes} {failure : Failure}

theorem decodeContent_eq_foreign_iff (hf : failure.isForeign) (hk : codecs.Knows encoding) :
    decodeContent codecs location encoding content = .error failure ↔
      content ≠ [] ∧ codecs.encoding? encoding = some .notText
        ∧ failure = .notTextEncoding encoding := by
  have hnull : encoding.contains (CodePoint.ofNat 0) = false := by
    simpa using hk.null_not_mem
  obtain ⟨known, hknown⟩ := Option.isSome_iff_exists.mp hk.isSome
  unfold decodeContent
  simp only [hk.characters, hnull, Bool.false_eq_true, if_false, hknown, List.isEmpty_iff]
  by_cases hc : content = []
  · simp [hc]
  cases known with
  | notText => simp [hc, eq_comm]
  | text decode =>
    simp only [hc, if_false, Option.some.injEq, reduceCtorEq, false_and, and_false, iff_false]
    rcases decode content with wording | text
    · simp only [Except.mapError, Except.error.injEq]
      rintro rfl
      cases hf
    · simp [Except.mapError]

theorem readContent_eq_foreign_iff (hf : failure.isForeign) (hk : codecs.Knows encoding) :
    readContent codecs location encoding content = .error failure ↔
      isToml location = false ∧ content ≠ [] ∧ codecs.encoding? encoding = some .notText
        ∧ failure = .notTextEncoding encoding := by
  unfold readContent
  by_cases ht : isToml location
  · simp only [ht, if_true, Bool.true_eq_false, false_and, iff_false]
    rcases readToml content with fault | properties
    · simp only [Except.mapError, Except.error.injEq]
      rintro rfl
      cases hf
    · simp [Except.mapError]
  · have hdecode : decodeContent codecs location encoding content = .error failure ↔ _ :=
      decodeContent_eq_foreign_iff hf hk
    rw [if_neg ht, ← hdecode]
    rcases decodeContent codecs location encoding content with stop | text
    · simp [ht, bind, Except.bind]
    · simp only [ht, bind, Except.bind, reduceCtorEq, and_false, iff_false]
      rcases Properties.readText text with escape | properties
      · simp only [Except.mapError, Except.error.injEq]
        rintro rfl
        cases hf
      · simp [Except.mapError]

theorem Loader.source_eq_error_iff {loader : Loader} :
    loader.source location encoding = .error failure ↔
      loader.load location = .error failure
        ∨ ∃ content, loader.load location = .ok content
          ∧ readContent loader.codecs location encoding content = .error failure := by
  simp [source, bind_eq_error_iff, pure, Except.pure]

end PropertyLayers
