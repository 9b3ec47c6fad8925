import PropertyLayers.Proofs.PropertyMap
import PropertyLayers.Properties.Inline

/-!
# Reading inline entries

Of the entries that give a key a value, the last one counts (`get?_readEntries`). Entries cannot be
read exactly where one of them is rejected, and then the first that is rejected is the failure
(`readEntries_eq_error_iff`). To read two lists at once is to lay the second map over the first
(`readEntries_append`).
-/

namespace PropertyLayers.Properties

/-- The value that an entry gives to the key. -/
def valueIn? (key entry : Text) : Option Text :=
  if entry.isBlank then none
  else match readEntry entry with
    | .ok (k, value) => if k = key then some value else none
    | .error _ => none

theorem get?_addEntry {m n : PropertyMap} {entry : Text} (key : Text)
    (h : addEntry m entry = .ok n) : n.get? key = (valueIn? key entry).or (m.get? key) := by
  unfold addEntry at h
  unfold valueIn?
  by_cases hb : entry.isBlank
  · rw [if_pos hb] at h ⊢
    cases h
    rfl
  · rw [if_neg hb] at h ⊢
    rcases hread : readEntry entry with fault | ⟨k, value⟩ <;> rw [hread] at h
    · cases h
    · cases h
      rw [PropertyMap.get?_insert]
      by_cases hk : k = key <;> simp [hk]

theorem get?_foldlM_addEntry (key : Text) :
    ∀ {entries : List Text} {m n : PropertyMap}, entries.foldlM addEntry m = .ok n →
      n.get? key = (entries.reverse.findSome? (valueIn? key)).or (m.get? key)
  | [], m, n, h => by
    cases h
    rfl
  | entry :: rest, m, n, h => by
    rw [List.foldlM_cons] at h
    rcases hfirst : addEntry m entry with malformed | first <;> rw [hfirst] at h
    · cases h
    · have ih := get?_foldlM_addEntry key h
      rw [List.reverse_cons, List.findSome?_append, Option.or_assoc, ih, get?_addEntry key hfirst]
      simp

/-- The value of a key in the map of some entries is that of the last entry that gives it one. -/
theorem get?_readEntries {entries : List Text} {m : PropertyMap} (key : Text)
    (h : readEntries entries = .ok m) :
    m.get? key = entries.reverse.findSome? (valueIn? key) := by
  rw [get?_foldlM_addEntry key h, PropertyMap.get?_empty, Option.or_none]

/-- The entry is not passed over, and it is no single property for this reason. -/
def Rejects (entry : Text) (fault : EntryFault) : Prop :=
  entry.isBlank = false ∧ readEntry entry = .error fault

/-- The entry at fault is rejected, and none before it is. -/
def FirstRejected (entries : List Text) (malformed : MalformedEntry) : Prop :=
  ∃ before after, entries = before ++ malformed.entry :: after
    ∧ (∀ entry ∈ before, ∀ fault, ¬ Rejects entry fault)
    ∧ Rejects malformed.entry malformed.fault

theorem addEntry_of_rejects {m : PropertyMap} {entry : Text} {fault : EntryFault}
    (h : Rejects entry fault) : addEntry m entry = .error ⟨entry, fault⟩ := by
  simp [addEntry, h.1, h.2]

theorem exists_addEntry_of_not_rejects {entry : Text} (m : PropertyMap)
    (h : ∀ fault, ¬ Rejects entry fault) : ∃ n, addEntry m entry = .ok n := by
  rcases hb : entry.isBlank with _ | _
  · rcases hread : readEntry entry with fault | ⟨key, value⟩
    · exact absurd ⟨hb, hread⟩ (h fault)
    · exact ⟨m.insert key value, by simp [addEntry, hb, hread]⟩
  · exact ⟨m, by simp [addEntry, hb]⟩

theorem foldlM_addEntry_of_not_rejects :
    ∀ {entries : List Text} (m : PropertyMap),
      (∀ entry ∈ entries, ∀ fault, ¬ Rejects entry fault) →
        ∃ n, entries.foldlM addEntry m = .ok n
  | [], m, _ => ⟨m, rfl⟩
  | entry :: rest, m, h => by
    obtain ⟨first, hfirst⟩ := exists_addEntry_of_not_rejects m (h entry List.mem_cons_self)
    obtain ⟨n, hn⟩ := foldlM_addEntry_of_not_rejects first
      fun e he => h e (List.mem_cons_of_mem entry he)
    refine ⟨n, ?_⟩
    rw [List.foldlM_cons, hfirst]
    exact hn

theorem foldlM_addEntry_of_firstRejected {entries : List Text} {malformed : MalformedEntry}
    (m : PropertyMap) (h : FirstRejected entries malformed) :
    entries.foldlM addEntry m = .error malformed := by
  obtain ⟨before, after, rfl, hbefore, hrejects⟩ := h
  obtain ⟨n, hn⟩ := foldlM_addEntry_of_not_rejects m hbefore
  rw [List.foldlM_append, hn]
  show (malformed.entry :: after).foldlM addEntry n = _
  rw [List.foldlM_cons, addEntry_of_rejects hrejects]
  rfl

theorem exists_firstRejected :
    ∀ {entries : List Text} {entry : Text} {fault : EntryFault}, entry ∈ entries →
      Rejects entry fault → ∃ malformed, FirstRejected entries malformed
  | first :: rest, entry, fault, hm, h => by
    by_cases hfirst : ∃ fault, Rejects first fault
    · obtain ⟨fault, hfirst⟩ := hfirst
      exact ⟨⟨first, fault⟩, [], rest, rfl, by simp, hfirst⟩
    · have hrest : entry ∈ rest := by
        rcases List.mem_cons.mp hm with rfl | hrest
        · exact absurd ⟨fault, h⟩ hfirst
        · exact hrest
      obtain ⟨malformed, before, after, rfl, hbefore, hrejects⟩ := exists_firstRejected hrest h
      refine ⟨malformed, first :: before, after, rfl, fun e he fault hr => ?_, hrejects⟩
      rcases List.mem_cons.mp he with rfl | he
      · exact hfirst ⟨fault, hr⟩
      · exact hbefore e he fault hr

/-- Reading fails at the first entry that is rejected. -/
theorem readEntries_eq_error_iff {entries : List Text} {malformed : MalformedEntry} :
    readEntries entries = .error malformed ↔ FirstRejected entries malformed := by
  refine ⟨fun h => ?_, foldlM_addEntry_of_firstRejected ∅⟩
  by_cases hr : ∃ entry ∈ entries, ∃ fault, Rejects entry fault
  · obtain ⟨entry, hm, fault, hr⟩ := hr
    obtain ⟨other, hother⟩ := exists_firstRejected hm hr
    rw [readEntries, foldlM_addEntry_of_firstRejected ∅ hother] at h
    cases h
    exact hother
  · obtain ⟨n, hn⟩ := foldlM_addEntry_of_not_rejects ∅
      fun entry hm fault h => hr ⟨entry, hm, fault, h⟩
    rw [readEntries, hn] at h
    cases h

theorem exists_readEntries_iff {entries : List Text} :
    (∃ m, readEntries entries = .ok m) ↔ ∀ entry ∈ entries, ∀ fault, ¬ Rejects entry fault := by
  refine ⟨fun ⟨m, hm⟩ entry he fault hr => ?_, foldlM_addEntry_of_not_rejects ∅⟩
  obtain ⟨malformed, hfirst⟩ := exists_firstRejected he hr
  rw [readEntries_eq_error_iff.mpr hfirst] at hm
  cases hm

/-! ## Lists read at once -/

theorem addEntry_update (m n : PropertyMap) (entry : Text) :
    addEntry (m.update n) entry = (addEntry n entry).map m.update := by
  unfold addEntry
  split
  · rfl
  rcases readEntry entry with fault | ⟨key, value⟩
  · rfl
  · exact congrArg Except.ok (PropertyMap.insert_update m n key value)

theorem foldlM_addEntry_update (m : PropertyMap) :
    ∀ (entries : List Text) (n : PropertyMap),
      entries.foldlM addEntry (m.update n) = (entries.foldlM addEntry n).map m.update
  | [], _ => rfl
  | entry :: rest, n => by
    rw [List.foldlM_cons, List.foldlM_cons, addEntry_update]
    rcases addEntry n entry with malformed | first
    · rfl
    · exact foldlM_addEntry_update m rest first

theorem readEntries_append (front back : List Text) :
    readEntries (front ++ back) =
      (readEntries front).bind fun m => (readEntries back).map m.update := by
  rw [readEntries, List.foldlM_append]
  exact bind_congr fun m => foldlM_addEntry_update m back ∅

end PropertyLayers.Properties
