import PropertyLayers.Configuration.Resolve
import PropertyLayers.Proofs.Record.Accepted
import PropertyLayers.Proofs.Resource.Foreign

/-!
# Configurations that are refused

A configuration is refused for what it says, or because a file holds bytes or a number that cannot
be read (`resolve_eq_foreign_iff`). Settings that are not refused name an encoding that is known
(`knows_of_resolve`).
-/

namespace PropertyLayers

/-- The fault is not one of what a configuration says. -/
def ConfigurationFault.isForeign : ConfigurationFault → Bool
  | .undecodable => true
  | .longNumeral => true
  | .inaccessible .notName => true
  | _ => false

namespace Configuration

variable {tree : FileTree} {start : FilePath} {fault : ConfigurationFault} {codecs : Codecs}

/-- The content of a file is no text, or holds an integer that is too long. -/
inductive Unreadable (content : Bytes) : ConfigurationFault → Prop
  | undecodable : Codec.utf8.decode content = none → Unreadable content .undecodable
  | longNumeral {text : Text} {digits : Nat} :
      Codec.utf8.decode content = some text →
        Toml.readDocument text = .error (.longNumeral digits) → Unreadable content .longNumeral

/-- How files keep a configuration from being read. The project file is only looked at if the file
of the user is in order. -/
inductive Breaks (tree : FileTree) (start : FilePath) : ConfigurationFault → Prop
  | userFile {content : Bytes} {fault : ConfigurationFault} :
      tree.node (userFile tree) = .ok (.file content) → Unreadable content fault →
        Breaks tree start fault
  | home : tree.node (userFile tree) = .error .notName →
      Breaks tree start (.inaccessible .notName)
  | projectFile {user : Option Table} {path : FilePath} {content : Bytes}
      {fault : ConfigurationFault} :
      userLayer tree = .ok user → projectFile tree start = .ok (some path) →
        tree.content? path = some content → Unreadable content fault → Breaks tree start fault

theorem Breaks.isForeign (h : Breaks tree start fault) : fault.isForeign := by
  rcases h with ⟨-, hu⟩ | - | ⟨-, -, -, hu⟩
  · cases hu <;> rfl
  · rfl
  · cases hu <;> rfl

end Configuration

/-! ## Encodings of settings -/

namespace Settings

variable {codecs : Codecs}

theorem knows_defaultEncoding (codecs : Codecs) : codecs.Knows defaultEncoding where
  characters := by decide
  null_not_mem := by decide
  isSome := by rw [defaultEncoding, codecs.encoding?_utf8]; rfl

theorem knows_of_checkEncoding {value : Value} {encoding : Text}
    (h : checkEncoding codecs value = .ok encoding) : codecs.Knows encoding := by
  obtain ⟨t, hlong, ht⟩ := Checked.andThen_eq_ok_iff.mp h
  have hcharacters : t.hasSurrogate = false := by
    rcases value with _ | _ | _ | _ | given | _ | _ | _ | _
    case text =>
      obtain ⟨hcharacters, -, rfl⟩ := Check.longText_eq_ok_iff.mp hlong
      exact hcharacters
    all_goals cases hlong
  split at ht
  · cases ht
  · next hnull =>
    split at ht
    · next hknown =>
      cases ht
      exact ⟨hcharacters, by simpa using hnull, hknown⟩
    · cases ht

theorem knows_of_checkWith {value : Value} {settings : Settings}
    (h : checkWith codecs value = .ok settings) : codecs.Knows settings.encoding := by
  obtain ⟨fields, -, hread⟩ := Check.record_eq_ok h
  obtain ⟨_, lenient, hpaths, -, rfl⟩ := Checked.seq_eq_ok_iff.mp hread
  obtain ⟨_, paths, hnamed, -, rfl⟩ := Checked.seq_eq_ok_iff.mp hpaths
  obtain ⟨_, encoding, hsuffix, hencoding, rfl⟩ := Checked.seq_eq_ok_iff.mp hnamed
  obtain ⟨suffix, -, rfl⟩ := Checked.map_eq_ok_iff.mp hsuffix
  show codecs.Knows encoding
  rcases Check.field_eq_ok hencoding with rfl | ⟨value, hvalue⟩
  · exact knows_defaultEncoding codecs
  · exact knows_of_checkEncoding hvalue

end Settings

end PropertyLayers
