import PropertyLayers.Record.Scalar

/-!
# Records that are accepted

Where a check gives a value, so do the checks that it is put together from: both of two results
(`Checked.seq_eq_ok_iff`), a value and what goes on with it (`Checked.andThen_eq_ok_iff`), and the
reading of a record (`Check.record_eq_ok`). A field is what its check gives, or its default
(`Check.field_eq_ok`), which it is if it is not given (`Check.field_of_not_mem`).
-/

namespace PropertyLayers

variable {α β : Type}

theorem Checked.seq_eq_ok_iff {f : Checked (α → β)} {x : Checked α} {result : β} :
    f.seq x = .ok result ↔ ∃ g value, f = .ok g ∧ x = .ok value ∧ result = g value := by
  cases f <;> cases x <;> simp [Checked.seq, eq_comm]

theorem Checked.map_eq_ok_iff {f : α → β} {x : Checked α} {result : β} :
    x.map f = .ok result ↔ ∃ value, x = .ok value ∧ result = f value := by
  cases x <;> simp [Checked.map, eq_comm]

theorem Checked.andThen_eq_ok_iff {x : Checked α} {next : α → Checked β} {result : β} :
    x.andThen next = .ok result ↔ ∃ value, x = .ok value ∧ next value = .ok result := by
  cases x <;> simp [Checked.andThen]

theorem Check.field_eq_ok {name : Text} {default : α} {check : Check α} {fields : Table}
    {result : α} (h : Check.field name (some default) check fields = .ok result) :
    result = default ∨ ∃ value, check value = .ok result := by
  unfold Check.field at h
  split at h
  · next value _ =>
    rcases hc : check value with checked | found <;> rw [hc] at h
    · cases h
      exact .inr ⟨value, hc⟩
    · cases h
  · cases h
    exact .inl rfl

theorem Check.record_eq_ok {names : List Text} {read : Table → Checked α} {value : Value}
    {result : α} (h : Check.record names read value = .ok result) :
    ∃ fields, value = .table fields ∧ read fields = .ok result := by
  unfold Check.record at h
  split at h
  · next fields =>
    obtain ⟨_, _, hconst, -, rfl⟩ := Checked.seq_eq_ok_iff.mp h
    obtain ⟨value, hread, rfl⟩ := Checked.map_eq_ok_iff.mp hconst
    exact ⟨fields, rfl, hread⟩
  · cases h

theorem Check.field_of_not_mem {name : Text} {fields : Table} (h : name ∉ Keyed.keys fields)
    (default : α) (check : Check α) :
    Check.field name (some default) check fields = .ok default := by
  rw [Check.field, Keyed.find?_eq_none_of_not_mem h]

theorem Check.longText_eq_ok_iff {least : Nat} {t result : Text} :
    Check.longText least (.text t) = .ok result ↔
      t.hasSurrogate = false ∧ least ≤ t.length ∧ result = t := by
  rw [Check.longText]
  by_cases hcharacters : t.hasSurrogate
  · simp [hcharacters, Checked.fault]
  · by_cases hshort : t.length < least
    · simp [hcharacters, hshort, Checked.fault, Nat.not_le_of_lt hshort]
    · simp [hcharacters, hshort, Nat.not_lt.mp hshort, eq_comm]

end PropertyLayers
