import PropertyLayers.Proofs.Configuration.Refused
import PropertyLayers.Resource.Load

/-!
# How loading a source ends

Loading a source ends well if it gives a source named after the location, or fails because the
resource cannot be loaded. With the encoding of checked settings, and a loader that fails in this
way alone, all loading ends well but that of content that is no TOML document where the encoding is
not one for texts (`endsWell_iff`). This holds whatever codecs there are.
-/

namespace PropertyLayers

/-- The failure is that a resource cannot be loaded. -/
def Failure.IsUnloadable (failure : Failure) : Prop :=
  ∃ location fault, failure = .unloadable location fault

namespace Loader

/-- Loading the source at the location gives a source of this name, or fails because a resource
cannot be loaded. -/
inductive EndsWell (loader : Loader) (location encoding : Text) : Prop
  | sourced {source : Source} :
      loader.source location encoding = .ok source → source.name = location →
        EndsWell loader location encoding
  | unloadable {failure : Failure} :
      loader.source location encoding = .error failure → failure.IsUnloadable →
        EndsWell loader location encoding

/-- There is content at the location, which is to be a properties text, but the encoding is not one
for texts. -/
def Untextual (loader : Loader) (location encoding : Text) : Prop :=
  isToml location = false ∧ loader.codecs.encoding? encoding = some .notText
    ∧ ∃ content, loader.load location = .ok content ∧ content ≠ []

end Loader

variable {codecs : Codecs} {location encoding : Text} {content : Bytes} {failure : Failure}

theorem isUnloadable_of_mapError {α ε : Type} {x : Except ε α} {reason : ε → LoadFault}
    (h : (x.mapError fun e => Failure.unloadable location (reason e)) = .error failure) :
    failure.IsUnloadable := by
  rcases x with e | a
  · cases h
    exact ⟨_, _, rfl⟩
  · cases h

theorem decodeContent_eq_error
    (h : decodeContent codecs location encoding content = .error failure) :
    failure.isForeign ∨ failure.IsUnloadable := by
  unfold decodeContent at h
  split at h
  · cases h
    exact .inr ⟨_, _, rfl⟩
  split at h
  · cases h
    exact .inr ⟨_, _, rfl⟩
  split at h
  · cases h
  split at h
  · cases h
    exact .inl rfl
  · cases h
    exact .inl rfl
  · exact .inr (isUnloadable_of_mapError h)

theorem readContent_eq_error (h : readContent codecs location encoding content = .error failure) :
    failure.isForeign ∨ failure.IsUnloadable := by
  unfold readContent at h
  split at h
  · exact .inr (isUnloadable_of_mapError h)
  · rcases bind_eq_error_iff.mp h with hdecode | ⟨text, -, hread⟩
    · exact decodeContent_eq_error hdecode
    · exact .inr (isUnloadable_of_mapError hread)

namespace Loader

variable {loader : Loader}

/-- With the encoding of checked settings the loading of a source ends well unless there is content
that is no TOML document and the encoding is not one for texts. There it fails for the encoding. -/
theorem endsWell_iff {value : Value} {settings : Settings}
    (hchecked : Settings.checkWith loader.codecs value = .ok settings)
    (hload : ∀ failure, loader.load location = .error failure → failure.IsUnloadable) :
    (loader.EndsWell location settings.encoding ↔ ¬ loader.Untextual location settings.encoding)
      ∧ (loader.Untextual location settings.encoding →
        loader.source location settings.encoding =
          .error (.notTextEncoding settings.encoding)) := by
  have hknown := Settings.knows_of_checkWith hchecked
  have hfails : loader.Untextual location settings.encoding →
      loader.source location settings.encoding =
        .error (.notTextEncoding settings.encoding) := by
    rintro ⟨htoml, hcodec, content, hcontent, hne⟩
    refine source_eq_error_iff.mpr (.inr ⟨content, hcontent, ?_⟩)
    exact (readContent_eq_foreign_iff rfl hknown).mpr ⟨htoml, hne, hcodec, rfl⟩
  refine ⟨⟨fun hends huntextual => ?_, fun htextual => ?_⟩, hfails⟩
  · rcases hends with ⟨h, -⟩ | ⟨h, location', fault, rfl⟩ <;> rw [hfails huntextual] at h <;>
      cases h
  · rcases hsource : loader.source location settings.encoding with failure | source
    · rcases source_eq_error_iff.mp hsource with h | ⟨content, hcontent, h⟩
      · exact .unloadable hsource (hload failure h)
      · rcases readContent_eq_error h with hforeign | hunloadable
        · obtain ⟨htoml, hne, hcodec, -⟩ := (readContent_eq_foreign_iff hforeign hknown).mp h
          exact absurd ⟨htoml, hcodec, content, hcontent, hne⟩ htextual
        · exact .unloadable hsource hunloadable
    · exact .sourced hsource (name_of_source hsource)

/-- The settings of a table that gives an encoding alone. -/
def encodingOnly (name : Text) : Value := .table [("encoding", .text name)]

/-- A loader for one properties text. -/
def onePair : Loader := .ofEntries [("a.properties", [0x6B, 0x3D, 0x76])]

theorem endsWell_iff_latin1 :
    Settings.checkWith onePair.codecs (encodingOnly "latin-1") =
        .ok ⟨".properties", "latin-1", [], false⟩
      ∧ onePair.EndsWell "a.properties" "latin-1" := by
  have hchecked : Settings.checkWith onePair.codecs (encodingOnly "latin-1") =
      .ok ⟨".properties", "latin-1", [], false⟩ := by cbv
  have hload : ∀ failure, onePair.load "a.properties" = .error failure →
      failure.IsUnloadable := by
    intro failure h
    cases h
  have htextual : ¬ onePair.Untextual "a.properties" "latin-1" := by
    rintro ⟨-, hcodec, -⟩
    have hlatin : onePair.codecs.encoding? "latin-1" = some Codec.latin1.toEncoding := rfl
    cases hlatin.symm.trans hcodec
  obtain ⟨hends, -⟩ := endsWell_iff hchecked hload
  exact ⟨hchecked, hends.mpr htextual⟩

/-- An encoding that is known but not for texts is accepted, and then the failure is none of the
resource. -/
theorem not_endsWell_hex :
    Settings.check (encodingOnly "hex") = .ok ⟨".properties", "hex", [], false⟩
      ∧ onePair.source "a.properties" "hex" = .error (.notTextEncoding "hex")
      ∧ ¬ onePair.EndsWell "a.properties" "hex" := by
  have hsource : onePair.source "a.properties" "hex" = .error (.notTextEncoding "hex") := by
    decide +kernel
  refine ⟨by cbv, hsource, fun hends => ?_⟩
  rcases hends with ⟨h, -⟩ | ⟨h, location', fault, rfl⟩ <;> rw [hsource] at h <;> cases h

end Loader

end PropertyLayers
