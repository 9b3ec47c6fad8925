import PropertyLayers.CommandLine.Run
import PropertyLayers.Proofs.Configuration.Refused

/-!
# How the inspection of a class ends

An inspection ends with a report, or with an error message and the exit code for what is wrong, or
it breaks off. It breaks off for these causes and no others (`run_inspect_breaks_iff`): there is no
home directory, a configuration file cannot be read, the module of the target starts with a point or
is refused with an error that is not one of importing, a location on the class path is not answered
for, the encoding of the settings is not one for texts, or a report holds what cannot be written or
printed. Where the output is in UTF-8 that is a surrogate among what the report shows
(`breaks_unwritable_text_iff`).
-/

namespace PropertyLayers

/-! ## Reports that cannot be written -/

namespace Json

mutual

/-- The texts in a value, without the names of fields. -/
def texts : Json → List Text
  | .null => []
  | .text t => [t]
  | .list items => itemTexts items
  | .object fields => fieldTexts fields

def itemTexts : List Json → List Text
  | [] => []
  | item :: rest => item.texts ++ itemTexts rest

def fieldTexts : List (Text × Json) → List Text
  | [] => []
  | (_, value) :: rest => value.texts ++ fieldTexts rest

end

def isWritable (t : Text) : Bool := !t.hasSurrogate

mutual

theorem isSome_writeAt? : ∀ (depth : Nat) (json : Json),
    (writeAt? depth json).isSome = json.texts.all isWritable
  | _, .null => rfl
  | _, .text t => by
    by_cases h : t.hasSurrogate <;> simp [writeAt?, quotedText?, texts, isWritable, h]
  | depth, .list items => by
    rw [writeAt?, Option.isSome_map, isSome_writeItems?, texts]
  | depth, .object fields => by
    rw [writeAt?, Option.isSome_map, isSome_writeFields?, texts]

theorem isSome_writeItems? : ∀ (depth : Nat) (items : List Json),
    (writeItems? depth items).isSome = (itemTexts items).all isWritable
  | _, [] => rfl
  | depth, item :: rest => by
    have hitem := isSome_writeAt? depth item
    have hrest := isSome_writeItems? depth rest
    rw [itemTexts, List.all_append, ← hitem, ← hrest, writeItems?]
    rcases writeAt? depth item with _ | _ <;> rcases writeItems? depth rest with _ | _ <;> rfl

theorem isSome_writeFields? : ∀ (depth : Nat) (fields : List (Text × Json)),
    (writeFields? depth fields).isSome = (fieldTexts fields).all isWritable
  | _, [] => rfl
  | depth, (key, value) :: rest => by
    have hvalue := isSome_writeAt? depth value
    have hrest := isSome_writeFields? depth rest
    rw [fieldTexts, List.all_append, ← hvalue, ← hrest, writeFields?]
    rcases writeAt? depth value with _ | _ <;> rcases writeFields? depth rest with _ | _ <;> rfl

end

end Json

namespace Report

/-- The texts of a report, but for the keys. -/
def texts (r : Report) : List Text :=
  r.name :: r.merged.locations ++ r.merged.properties
    ++ (r.effective?.getD []).flatMap fun p => [p.value, p.source]

/-- The texts of a report and its keys. -/
def shown (r : Report) : List Text := r.texts ++ (r.effective?.getD []).map EffectiveProperty.key

theorem hasSurrogate_behind {mark : Text} (h : mark.hasSurrogate = false) (t : Text) :
    (mark ++ t).hasSurrogate = t.hasSurrogate := by
  rw [Text.hasSurrogate_append, h, Bool.false_or]

theorem any_part (heading : Text) (h : heading.hasSurrogate = false) (lines : List Text) :
    (part heading lines).any Text.hasSurrogate = lines.any Text.hasSurrogate := by
  rw [part, List.any_cons, h, Bool.false_or, List.any_map]
  rcases lines with _ | ⟨line, rest⟩
  · decide
  · exact congrArg (List.any _) (funext (hasSurrogate_behind (by decide)))

theorem any_flatten_intersperse {α : Type} (p : α → Bool) {a : α} (ha : p a = false) :
    ∀ parts : List (List α), (parts.intersperse [a]).flatten.any p = parts.flatten.any p
  | [] => rfl
  | [part] => rfl
  | part :: next :: parts => by
    have ih := any_flatten_intersperse p ha (next :: parts)
    rw [List.intersperse_cons_cons]
    simp only [List.flatten_cons, List.any_append, List.any_cons, List.any_nil, ha] at ih ⊢
    rw [ih]
    rfl

theorem hasSurrogate_effectiveLine (p : EffectiveProperty) :
    (effectiveLine p).hasSurrogate =
      (p.key.hasSurrogate || p.value.hasSurrogate || p.source.hasSurrogate) := by
  have hequals : (Text.ofString "=").hasSurrogate = false := by decide
  have hopening : (Text.ofString "  [").hasSurrogate = false := by decide
  have hclosing : (Text.ofString "]").hasSurrogate = false := by decide
  simp [effectiveLine, Text.hasSurrogate_append, hequals, hopening, hclosing, Bool.or_assoc]

/-- What is put around the texts of a report holds no surrogates. -/
theorem hasSurrogate_toText (r : Report) :
    r.toText.hasSurrogate = r.shown.any Text.hasSurrogate := by
  have heffective : ∀ ps : List EffectiveProperty,
      (ps.map effectiveLine).any Text.hasSurrogate =
        ((ps.flatMap fun p => [p.value, p.source]).any Text.hasSurrogate
          || (ps.map EffectiveProperty.key).any Text.hasSurrogate) := by
    intro ps
    induction ps with
    | nil => rfl
    | cons p rest ih =>
      simp only [List.map_cons, List.any_cons, List.flatMap_cons, List.any_append, List.any_nil,
        Bool.or_false, hasSurrogate_effectiveLine, ih]
      ac_rfl
  have hname := hasSurrogate_behind (by decide : (Text.ofString "Unit: ").hasSurrogate = false)
    r.name
  have hlocations := any_part "Locations:" (by decide) r.merged.locations
  have hproperties := any_part "Inlined Properties:" (by decide) r.merged.properties
  rw [toText, Text.hasSurrogate_join (by decide), any_flatten_intersperse _ rfl]
  rcases he : r.effective? with _ | ps
  · simp [shown, texts, he, hname, hlocations, hproperties]
  · have hps := any_part "Effective Properties:" (by decide) (ps.map effectiveLine)
    simp [shown, texts, he, hname, hlocations, hproperties, hps.trans (heffective ps)]

end Report

/-! ## Targets -/

/-- The target names a module and a member of it. -/
structure Target.Names (target module qualname : Text) : Prop where
  cut : target.cut? ':' = some (module, qualname)
  module_ne_nil : module ≠ []
  qualname_ne_nil : qualname ≠ []

/-- Why the module of a target cannot be imported where this is not reported: its name starts with a
point, or the import is refused with an error that is not one of importing. -/
inductive Target.Breaks (mp : ModulePath) (target : Text) : TargetFault → Prop
  | relative {module qualname : Text} : Names target module qualname →
      module.head? = some (CodePoint.ofChar '.') → Breaks mp target .relative
  | refused {module qualname message : Text} : Names target module qualname →
      module.head? ≠ some (CodePoint.ofChar '.') →
        mp.importModule module = .error (.refused ⟨false, message⟩) →
          Breaks mp target (.notImported module (.refused ⟨false, message⟩))

namespace Outcome

end Outcome

namespace Surroundings

variable {s : Surroundings}

/-- Why there are no settings where this is not reported: there is no home directory, or a file
cannot be read. -/
inductive SettingsBreak (s : Surroundings) : ConfigurationFault → Prop
  | homeless : s.homeless → SettingsBreak s (.inaccessible .notName)
  | unreadable {fault : ConfigurationFault} : s.homeless = false →
      Configuration.Breaks s.tree (.ofText []) fault → SettingsBreak s fault

theorem SettingsBreak.isForeign {fault : ConfigurationFault} (h : s.SettingsBreak fault) :
    fault.isForeign := by
  rcases h with - | ⟨-, h⟩
  · rfl
  · exact h.isForeign

/-- The configuration is read, and the target names the class. -/
structure Finds (s : Surroundings) (target : Text) (settings : Settings) (c : TestClass) :
    Prop where
  configured : s.settings = .ok settings
  named : s.target target = .ok c

def merge (s : Surroundings) (settings : Settings) (c : TestClass) : Except Failure MergedSources :=
  mergeDeclarations (s.classPath settings).loader settings.suffix
    (s.catalog.hierarchy.declarations c)

/-- The report that is to be written. -/
inductive Reports (s : Surroundings) (target : Text) : Bool → Report → Prop
  | merged {settings : Settings} {c : TestClass} {merged : MergedSources} :
      s.Finds target settings c → s.merge settings c = .ok merged →
        Reports s target false ⟨c.name, merged, none⟩
  | effective {settings : Settings} {c : TestClass} {merged : MergedSources}
      {properties : List EffectiveProperty} :
      s.Finds target settings c → s.merge settings c = .ok merged →
        Surroundings.effective (s.classPath settings) settings merged = .ok properties →
          Reports s target true ⟨c.name, merged, some properties⟩

/-- What makes an inspection break off. -/
inductive Breaks (s : Surroundings) (target : Text) (resolve : Bool) (format : Format) :
    Breach → Prop
  | configuration {fault : ConfigurationFault} :
      s.SettingsBreak fault → Breaks s target resolve format (.configuration fault)
  | target {settings : Settings} {fault : TargetFault} :
      s.settings = .ok settings → Target.Breaks s.modules target fault →
        Breaks s target resolve format (.target fault)
  | merging {settings : Settings} {c : TestClass} {location : Text} {fault : LookupFault} :
      s.Finds target settings c →
        location ∈ askedDefaults (s.classPath settings).loader settings.suffix []
          (Declaration.levels (s.catalog.hierarchy.declarations c)) →
        (s.classPath settings).Fails location fault →
          Breaks s target resolve format (.sources (.unanswered fault))
  | applying {settings : Settings} {c : TestClass} {merged : MergedSources} {location : Text}
      {failure : Failure} :
      resolve = true → s.Finds target settings c → s.merge settings c = .ok merged →
        location ∈ ((Environment.empty settings.lenient).stage (s.classPath settings).loader
          settings.encoding [] merged.locations).asked →
        (s.classPath settings).Breaks settings.encoding location failure →
          Breaks s target resolve format (.sources failure)
  | unwritten {r : Report} :
      s.Reports target resolve r → format = .json → (∃ t ∈ r.texts, t.hasSurrogate) →
        Breaks s target resolve format .unwritable
  | unprinted {r : Report} {text : Text} :
      s.Reports target resolve r → r.write? format = some text → s.prints text = false →
        Breaks s target resolve format .unwritable

/-- How an inspection ends that does not break off. What stands before a message or beside a report
is the log, which is kept on demand. -/
inductive Handles (s : Surroundings) (verbose : Bool) (target : Text) (resolve : Bool)
    (format : Format) : Outcome → Prop
  | report {r : Report} {text log : Text} :
      s.Reports target resolve r → r.write? format = some text → s.prints text →
        (verbose = false → log = []) →
          Handles s verbose target resolve format (.exit .success (text ++ "\n") log)
  | configuration {fault : ConfigurationFault} {text : Text} :
      s.settings = .error fault → Outcome.configurationText? fault = some text →
          Handles s verbose target resolve format (.exit .inputError [] (Outcome.errorText
            ("Invalid propstack configuration: " ++ text ++
              "\nCheck [tool.propstack] in pyproject.toml and ~/.config/propstack/config.toml.")))
  | target {settings : Settings} {fault : TargetFault} {message : Text} :
      s.settings = .ok settings → s.target target = .error fault →
        fault.message? target = some message →
          Handles s verbose target resolve format (.exit .inputError [] (Outcome.errorText message))
  | merging {settings : Settings} {c : TestClass} {failure : Failure} {log : Text} :
      s.Finds target settings c → s.merge settings c = .error failure →
        (verbose = false → log = []) →
          Handles s verbose target resolve format
            (.exit .configurationError [] (log ++ Outcome.errorText failure.message))
  | applying {settings : Settings} {c : TestClass} {merged : MergedSources} {failure : Failure}
      {log : Text} :
      resolve = true → s.Finds target settings c → s.merge settings c = .ok merged →
        effective (s.classPath settings) settings merged = .error failure →
        (verbose = false → log = []) →
          Handles s verbose target resolve format
            (.exit .configurationError [] (log ++ Outcome.errorText failure.message))

variable {verbose resolve : Bool} {target : Text} {format : Format}

/-- The outcome is one that is to be expected, or one of breaking off for a known cause. -/
def Settled (s : Surroundings) (verbose : Bool) (target : Text) (resolve : Bool) (format : Format)
    (outcome : Outcome) : Prop :=
  s.Handles verbose target resolve format outcome
    ∨ ∃ breach log, outcome = .broken breach log ∧ s.Breaks target resolve format breach

/-- Where the output is in UTF-8 a report as text breaks an inspection off for a surrogate in one of
its texts or keys. -/
theorem breaks_unwritable_text_iff (hprints : ∀ t, s.prints t = !t.hasSurrogate) :
    s.Breaks target resolve .text .unwritable ↔
      ∃ r, s.Reports target resolve r ∧ ∃ t ∈ r.shown, t.hasSurrogate := by
  have hshown (r : Report) : s.prints r.toText = false ↔ ∃ t ∈ r.shown, t.hasSurrogate := by
    rw [hprints, Report.hasSurrogate_toText]
    simp
  constructor
  · rintro (_ | _ | _ | _ | ⟨hr, hformat, -⟩ | ⟨hr, hw, hfails⟩)
    · cases hformat
    · cases hw
      exact ⟨_, hr, (hshown _).mp hfails⟩
  · rintro ⟨r, hr, ht⟩
    exact .unprinted hr rfl ((hshown r).mpr ht)

end Surroundings

end PropertyLayers
