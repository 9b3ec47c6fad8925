import PropertyLayers.Text.Basic

/-!
# Schemes of locations

A scheme is a letter and at least one more of letters, digits, `+`, `.` and `-`, up to the first
colon. A single letter before a colon names a drive and is no scheme. To split a scheme off loses
nothing (`splitScheme_append`), and it is found again before any other rest (`splitScheme_of_scheme`).
-/

namespace PropertyLayers.Location

/-- What stands before a location under the roots of the class path. -/
def classPathScheme : Text := "classpath:"

def fileScheme : Text := "file:"

def inScheme (c : CodePoint) : Bool := c.isLetter || c.isDigit || c = '+' || c = '.' || c = '-'

def isSchemeName : Text → Bool
  | first :: second :: rest => first.isLetter && (second :: rest).all inScheme
  | _ => false

/-- The scheme, with its colon, and the rest. -/
def splitScheme (location : Text) : Text × Text :=
  match location.cut? ':' with
  | some (name, path) => if isSchemeName name then (name ++ ":", path) else ([], location)
  | none => ([], location)

def hasScheme (location : Text) : Bool := !(splitScheme location).1.isEmpty

/-- The scheme of some location, with its colon. -/
def IsScheme (scheme : Text) : Prop := ∃ name : Text, isSchemeName name ∧ scheme = name ++ ":"

theorem isScheme_classPath : IsScheme classPathScheme := ⟨"classpath", by decide, rfl⟩

theorem colon_not_mem_of_isSchemeName {name : Text} (h : isSchemeName name) :
    CodePoint.ofChar ':' ∉ name := by
  intro hm
  obtain ⟨first, second, rest, rfl⟩ : ∃ first second rest, name = first :: second :: rest := by
    rcases name with _ | ⟨first, _ | ⟨second, rest⟩⟩
    · cases h
    · cases h
    · exact ⟨first, second, rest, rfl⟩
  simp only [isSchemeName, Bool.and_eq_true, List.all_eq_true] at h
  rcases List.mem_cons.mp hm with rfl | hm
  · exact absurd h.1 (by decide)
  · exact absurd (h.2 _ hm) (by decide)

theorem splitScheme_of_scheme {scheme : Text} (h : IsScheme scheme) (path : Text) :
    splitScheme (scheme ++ path) = (scheme, path) := by
  obtain ⟨name, hn, rfl⟩ := h
  have hcut : Text.cut? ':' (name ++ ":" ++ path) = some (name, path) := by
    rw [List.append_assoc]
    exact Text.cut?_append path (colon_not_mem_of_isSchemeName hn)
  simp only [splitScheme, hcut, hn, if_true]

theorem splitScheme_append (location : Text) :
    (splitScheme location).1 ++ (splitScheme location).2 = location := by
  unfold splitScheme
  split
  · rename_i name path hcut
    split
    · rw [Text.append_of_cut? hcut, List.append_assoc]
      rfl
    · rfl
  · rfl

theorem isScheme_of_hasScheme {location : Text} (h : hasScheme location) :
    IsScheme (splitScheme location).1 := by
  unfold hasScheme splitScheme at h
  unfold splitScheme
  split at h
  · rename_i name path hcut
    split at h
    · rename_i hn
      refine ⟨name, hn, ?_⟩
      simp only [hn, if_true]
    · cases h
  · cases h

theorem hasScheme_of_scheme {scheme : Text} (h : IsScheme scheme) (path : Text) :
    hasScheme (scheme ++ path) := by
  rw [hasScheme, splitScheme_of_scheme h]
  obtain ⟨name, -, rfl⟩ := h
  simp [Text.ofString]

end PropertyLayers.Location
