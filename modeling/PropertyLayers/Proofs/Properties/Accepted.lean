import PropertyLayers.Proofs.Properties.Token

/-!
# Which inline entries are accepted

An entry that is not blank is accepted where its one logical line is a property: what it says of key
and value can be decoded, the key is not empty, and a separator stands bare somewhere in the line
(`exists_readEntry_iff`). Entries are read exactly where each of them is blank or accepted, and then
each that is not blank adds the one pair that the same text has when it is read as a document
(`readEntries_accepted`).
-/

namespace PropertyLayers.Properties

/-- What a line has to say to be one property. -/
structure IsProperty (line : Text) : Prop where
  key : WellFormed (keyTokens line)
  value : WellFormed (valueTokens line)
  key_ne_nil : keyTokens line ≠ []
  separated : ∃ t ∈ tokens line, t.isBare isSeparator

def Accepted (entry : Text) : Prop := ∃ line, logicalLines entry = [line] ∧ IsProperty line

/-! ## One entry -/

theorem readLine_eq (line : Text) :
    readLine line = (unescape (takeKey line).1).bind fun key =>
      (unescape (takeValue (takeKey line).2).1).map fun value =>
        ⟨key, value, (takeValue (takeKey line).2).2⟩ := rfl

theorem readLine_eq_ok_iff {line : Text} {read : Entry} :
    readLine line = .ok read ↔ unescape (takeKey line).1 = .ok read.key
      ∧ unescape (takeValue (takeKey line).2).1 = .ok read.value
      ∧ (takeValue (takeKey line).2).2 = read.separated := by
  rw [readLine_eq]
  rcases unescape (takeKey line).1 with e | key
  · simp [Except.bind]
  rcases unescape (takeValue (takeKey line).2).1 with e | value
  · simp [Except.bind, Except.map]
  rcases read with ⟨key', value', separated⟩
  simp [Except.bind, Except.map]

theorem exists_readLine_iff {line : Text} :
    (∃ read, readLine line = .ok read) ↔
      WellFormed (keyTokens line) ∧ WellFormed (valueTokens line) := by
  rw [← (tokens_takeKey line).1, ← tokens_takeValue, ← exists_unescape_iff, ← exists_unescape_iff]
  simp only [readLine_eq_ok_iff]
  constructor
  · rintro ⟨read, hkey, hvalue, -⟩
    exact ⟨⟨_, hkey⟩, _, hvalue⟩
  · rintro ⟨⟨key, hkey⟩, value, hvalue⟩
    exact ⟨⟨key, value, _⟩, hkey, hvalue, rfl⟩

theorem key_eq_nil_iff {line : Text} {read : Entry} (h : readLine line = .ok read) :
    read.key = [] ↔ keyTokens line = [] := by
  rw [← (tokens_takeKey line).1, tokens_eq_nil_iff]
  exact eq_nil_iff_of_unescape (readLine_eq_ok_iff.mp h).1

theorem readEntry_eq_ok_iff {entry : Text} {p : Text × Text} :
    readEntry entry = .ok p ↔ ∃ line read, logicalLines entry = [line]
      ∧ readLine line = .ok read ∧ hasBareSeparator line ∧ read.key ≠ []
      ∧ (read.key, read.value) = p := by
  unfold readEntry
  rcases logicalLines entry with _ | ⟨line, _ | ⟨next, lines⟩⟩
  · simp
  · rcases hread : readLine line with escape | read
    · simp [hread]
    · rcases hbare : hasBareSeparator line with _ | _
      · simp [hread, hbare]
      · by_cases hkey : read.key = [] <;> simp [hread, hbare, hkey]
  · simp

theorem exists_readEntry_iff {entry : Text} : (∃ p, readEntry entry = .ok p) ↔ Accepted entry := by
  simp only [readEntry_eq_ok_iff]
  constructor
  · rintro ⟨p, line, read, hline, hread, hbare, hkey, -⟩
    obtain ⟨hkeyFormed, hvalueFormed⟩ := exists_readLine_iff.mp ⟨read, hread⟩
    rw [hasBareSeparator_eq_any, List.any_eq_true] at hbare
    exact ⟨line, hline, hkeyFormed, hvalueFormed, mt (key_eq_nil_iff hread).mpr hkey, hbare⟩
  · rintro ⟨line, hline, h⟩
    obtain ⟨read, hread⟩ := exists_readLine_iff.mpr ⟨h.key, h.value⟩
    have hbare : hasBareSeparator line := by
      rw [hasBareSeparator_eq_any, List.any_eq_true]
      exact h.separated
    exact ⟨_, line, read, hline, hread, hbare, mt (key_eq_nil_iff hread).mp h.key_ne_nil, rfl⟩

/-- As a document, an entry that is read says the same one pair. -/
theorem readText_of_readEntry {entry : Text} {p : Text × Text} (h : readEntry entry = .ok p) :
    readText entry = .ok (.ofPairs [p]) := by
  obtain ⟨line, read, hline, hread, -, -, rfl⟩ := readEntry_eq_ok_iff.mp h
  rw [readText, hline, List.foldlM_cons, addLine, hread]
  rfl

theorem forall_not_rejects_iff {entry : Text} :
    (∀ fault, ¬ Rejects entry fault) ↔ entry.isBlank ∨ Accepted entry := by
  unfold Rejects
  rw [← exists_readEntry_iff]
  rcases entry.isBlank with _ | _
  · rcases readEntry entry with fault | p <;> simp
  · simp

/-! ## All entries -/

theorem pairs_of_foldlM_addEntry :
    ∀ {entries : List Text} {m n : PropertyMap}, entries.foldlM addEntry m = .ok n →
      ∃ pairs : List (Text × Text),
        (entries.filter fun entry => !entry.isBlank).map readText =
            pairs.map (fun p => .ok (.ofPairs [p]))
          ∧ n = pairs.foldl (fun m p => m.insert p.1 p.2) m
  | [], m, n, h => by
    cases h
    exact ⟨[], rfl, rfl⟩
  | entry :: rest, m, n, h => by
    rw [List.foldlM_cons] at h
    rcases hb : entry.isBlank with _ | _
    · rcases hread : readEntry entry with fault | p
      · rw [addEntry_of_rejects ⟨hb, hread⟩] at h
        cases h
      · have hadd : addEntry m entry = .ok (m.insert p.1 p.2) := by simp [addEntry, hb, hread]
        rw [hadd] at h
        obtain ⟨pairs, hpairs, hn⟩ := pairs_of_foldlM_addEntry h
        refine ⟨p :: pairs, ?_, hn⟩
        rw [List.filter_cons_of_pos (by simp [hb]), List.map_cons, List.map_cons, hpairs,
          readText_of_readEntry hread]
    · have hadd : addEntry m entry = .ok m := by simp [addEntry, hb]
      rw [hadd] at h
      obtain ⟨pairs, hpairs, hn⟩ := pairs_of_foldlM_addEntry h
      exact ⟨pairs, by rwa [List.filter_cons_of_neg (by simp [hb])], hn⟩

/-- Entries are read where each is blank or accepted. They make up the map of the pairs that those
which are not blank have as documents, each key at its first place and with its last value. Where
they are not read, the failure names the first entry that is neither blank nor accepted. -/
theorem readEntries_accepted (entries : List Text) :
    ((∃ m, readEntries entries = .ok m) ↔ ∀ entry ∈ entries, entry.isBlank ∨ Accepted entry)
      ∧ (∀ m, readEntries entries = .ok m →
          ∃ pairs, (entries.filter fun entry => !entry.isBlank).map readText =
              pairs.map (fun p => .ok (.ofPairs [p]))
            ∧ m = .ofPairs pairs)
      ∧ ∀ malformed, readEntries entries = .error malformed →
          ∃ before after, entries = before ++ malformed.entry :: after
            ∧ (∀ entry ∈ before, entry.isBlank ∨ Accepted entry)
            ∧ ¬ (malformed.entry.isBlank ∨ Accepted malformed.entry) := by
  refine ⟨?_, fun m hm => ?_, fun malformed hmalformed => ?_⟩
  · simp only [exists_readEntries_iff, forall_not_rejects_iff]
  · obtain ⟨pairs, hpairs, rfl⟩ := pairs_of_foldlM_addEntry hm
    exact ⟨pairs, hpairs, (PropertyMap.ofPairs_eq_foldl pairs).symm⟩
  · obtain ⟨before, after, he, hbefore, hrejects⟩ := readEntries_eq_error_iff.mp hmalformed
    refine ⟨before, after, he, fun entry hm => forall_not_rejects_iff.mp (hbefore entry hm), ?_⟩
    exact fun h => forall_not_rejects_iff.mpr h _ hrejects

end PropertyLayers.Properties
