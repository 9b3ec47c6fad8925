import PropertyLayers.Proofs.Resource.Foreign

/-!
# What imports come to

An import comes to what is known of the module, to what a file or the directories of its name make
of it, or to nothing (`imported_importModule`). So where nothing is known beforehand and all files
of modules are sources, no import is refused but one under a root that cannot be named, and a class
path fails to answer for a location only since a path or a name is too long
(`nameTooLong_of_fails`).
-/

namespace PropertyLayers

namespace ModulePath

/-- What an import comes to, and whence. -/
inductive Imported (mp : ModulePath) : Except ImportFault Module → Prop
  | known {name : Text} {outcome : Except ImportFault Module} :
      Keyed.find? name mp.known = some outcome → Imported mp outcome
  | missing {name : Text} {parent? : Option Text} : Imported mp (.error (.missing name parent?))
  | portions {directories : List FilePath} : Imported mp (.ok (.portions directories))
  | plain {directory : FilePath} {stem name : Text} {file : ModuleFile} :
      mp.file? directory stem = some file → Imported mp (file.outcome name .plain)
  | package {directory : FilePath} {stem name : Text} {file : ModuleFile} :
      mp.file? directory stem = some file → Imported mp (file.outcome name (.package directory))
  | unnameable : Imported mp (.error (.refused unnameable))

variable {mp : ModulePath}

theorem imported_of_findIn {name part : Text} {root : FilePath}
    {outcome : Except ImportFault Module} (h : mp.findIn name part root = .outcome outcome) :
    mp.Imported outcome := by
  unfold findIn at h
  rcases hinit : (if part.isEmpty then none else mp.file? (root.child part) "__init__") with _ | file
    <;> simp only [hinit] at h
  · split at h
    · cases h
      exact .unnameable
    split at h
    · cases h
    rcases hplain : mp.file? root part with _ | file <;> simp only [hplain] at h
    · split at h <;> cases h
    · cases h
      exact .plain hplain
  · split at h
    · cases h
      exact .unnameable
    split at h
    · cases h
    · cases h
      split at hinit
      · cases hinit
      · exact .package hinit

theorem imported_findUnder (name part : Text) (roots : List FilePath) :
    mp.Imported (mp.findUnder name part roots) := by
  unfold findUnder
  dsimp only
  split
  · next outcome hfound =>
    obtain ⟨found, hm, houtcome⟩ := List.exists_of_findSome?_eq_some hfound
    obtain ⟨root, -, rfl⟩ := List.mem_map.mp hm
    split at houtcome
    · next hroot =>
      cases houtcome
      exact imported_of_findIn hroot
    · cases houtcome
  · split
    · exact .missing
    · exact .portions

theorem imported_importParts : ∀ parts : List Text, mp.Imported (mp.importParts parts)
  | [] => .portions
  | part :: above => by
    have ih := imported_importParts above
    unfold importParts
    dsimp only
    split
    · next hknown => exact .known hknown
    · rcases hpackage : mp.importParts above with fault | module
      · rw [hpackage] at ih
        exact ih
      · simp only [bind, Except.bind]
        split
        · exact .missing
        · exact imported_findUnder _ _ _

theorem imported_importModule (mp : ModulePath) (name : Text) :
    mp.Imported (mp.importModule name) :=
  imported_importParts _

/-- Nothing is known beforehand, and all files of modules are sources. -/
structure OnlySources (mp : ModulePath) : Prop where
  known : mp.known = []
  files : ∀ {directory stem file}, mp.file? directory stem = some file →
    file.ending = sourceEnding

/-- What an import from sources alone comes to. -/
inductive FromSources : Except ImportFault Module → Prop
  | missing {name : Text} {parent? : Option Text} : FromSources (.error (.missing name parent?))
  | plain : FromSources (.ok .plain)
  | package {directory : FilePath} : FromSources (.ok (.package directory))
  | portions {directories : List FilePath} : FromSources (.ok (.portions directories))
  | unnameable : FromSources (.error (.refused unnameable))

theorem OnlySources.outcome_eq (hs : mp.OnlySources) {directory : FilePath} {stem : Text}
    {file : ModuleFile} (hfile : mp.file? directory stem = some file) (name : Text)
    (module : Module) : file.outcome name module = .ok module := by
  rw [ModuleFile.outcome, if_pos (hs.files hfile)]

theorem OnlySources.fromSources (hs : mp.OnlySources) {outcome : Except ImportFault Module}
    (h : mp.Imported outcome) : FromSources outcome := by
  cases h with
  | known hknown =>
    rw [hs.known] at hknown
    cases hknown
  | missing => exact .missing
  | portions => exact .portions
  | plain hfile =>
    rw [hs.outcome_eq hfile]
    exact .plain
  | package hfile =>
    rw [hs.outcome_eq hfile]
    exact .package
  | unnameable => exact .unnameable

end ModulePath

/-- Where there are only sources a class path fails to answer for what is too long, and under a root
that nothing can have the name of. -/
theorem ClassPath.nameTooLong_of_fails {cp : ClassPath} (hs : cp.modules.OnlySources)
    (hn : cp.refusesNameless = false) {location : Text} {fault : LookupFault}
    (h : cp.Fails location fault) :
    fault = .nameTooLong ∨ fault = .refused ModulePath.unnameable := by
  cases h with
  | refused _ himport =>
    have hfrom := hs.fromSources (himport ▸ cp.modules.imported_importModule _)
    cases hfrom
    exact .inr rfl
  | unanswered _ himport hunanswered =>
    have hfrom := hs.fromSources (himport ▸ cp.modules.imported_importModule _)
    cases hunanswered with
    | inPackage | inPortion => exact .inl rfl
    | nameless hrefuses => simp [refusesName, hn] at hrefuses
    | bare | provided => cases hfrom

end PropertyLayers
