import Mathlib.Data.List.Basic
import PropertyLayers.Record.Scalar

/-!
# Faults of records

The faults of a record are those of its parts, one part after the other (`found_seq`), those of a
list are those of its items (`found_items`), and each has its place (`found_inside`). A check that
finds no faults gives a value: the checks of single values do, and whatever is put together from
such checks (`Honest`).
-/

namespace PropertyLayers

variable {α β : Type}

theorem Checked.found_seq (f : Checked (α → β)) (x : Checked α) :
    (f <*> x).found = f.found ++ x.found := by
  show (f.seq x).found = _
  cases f <;> cases x <;> rfl

theorem Checked.found_seqLeft (x : Checked α) (y : Checked β) :
    (x <* y).found = x.found ++ y.found := by
  show ((x.map (Function.const β)).seq y).found = _
  cases x <;> cases y <;> rfl

theorem Checked.found_map (f : α → β) (x : Checked α) : (f <$> x).found = x.found := by
  show (x.map f).found = _
  cases x <;> rfl

theorem Checked.found_inside (step : Step) (x : Checked α) :
    (x.inside step).found = x.found.map fun f => { f with place := step :: f.place } := by
  cases x <;> rfl

/-- Where there are no faults there is a value. -/
def Checked.Honest (x : Checked α) : Prop := x.found = [] → ∃ value, x = .ok value

theorem Checked.honest_fault (kind : RecordFaultKind) : (fault kind : Checked α).Honest := by
  intro h
  cases h

theorem Checked.honest_ite (value : α) (found : List RecordFault) :
    (if found.isEmpty then Checked.ok value else .faults found).Honest := by
  split
  · exact fun _ => ⟨value, rfl⟩
  · next hne =>
    intro h
    exact absurd (List.isEmpty_iff.mpr h) hne

theorem Checked.exists_ok_iff {x : Checked α} (h : x.Honest) :
    (∃ value, x = .ok value) ↔ x.found = [] := by
  refine ⟨?_, h⟩
  rintro ⟨value, rfl⟩
  rfl

theorem Checked.Honest.seq {f : Checked (α → β)} {x : Checked α} (hf : f.Honest) (hx : x.Honest) :
    (f <*> x).Honest := by
  intro h
  rw [Checked.found_seq] at h
  obtain ⟨hfound, hfound'⟩ := List.append_eq_nil_iff.mp h
  obtain ⟨g, rfl⟩ := hf hfound
  obtain ⟨value, rfl⟩ := hx hfound'
  exact ⟨g value, rfl⟩

theorem Checked.Honest.map {x : Checked α} (h : x.Honest) (f : α → β) : (f <$> x).Honest := by
  intro hfound
  rw [Checked.found_map] at hfound
  obtain ⟨value, rfl⟩ := h hfound
  exact ⟨f value, rfl⟩

theorem Checked.Honest.seqLeft {x : Checked α} {y : Checked β} (hx : x.Honest) (hy : y.Honest) :
    (x <* y).Honest := by
  intro h
  rw [Checked.found_seqLeft] at h
  obtain ⟨hfound, hfound'⟩ := List.append_eq_nil_iff.mp h
  obtain ⟨value, rfl⟩ := hx hfound
  obtain ⟨other, rfl⟩ := hy hfound'
  exact ⟨value, rfl⟩

theorem Checked.Honest.inside {x : Checked α} (h : x.Honest) (step : Step) :
    (x.inside step).Honest := by
  intro hfound
  rw [Checked.found_inside, List.map_eq_nil_iff] at hfound
  obtain ⟨value, rfl⟩ := h hfound
  exact ⟨value, rfl⟩

theorem Checked.Honest.andThen {x : Checked α} {next : α → Checked β} (hx : x.Honest)
    (hnext : ∀ value, (next value).Honest) : (x.andThen next).Honest := by
  rcases x with value | found
  · exact hnext value
  · intro h
    obtain ⟨value, hvalue⟩ := hx h
    cases hvalue

theorem Check.honest_items (check : Check α) (least : Nat) (value : Value) :
    (Check.items check least value).Honest := by
  rcases value with _ | _ | _ | _ | _ | _ | _ | values | _
  case list => exact Checked.honest_ite _ _
  all_goals exact Checked.honest_fault .notList

theorem Check.honest_field {check : Check α} (h : ∀ value, (check value).Honest) (name : Text)
    (default : α) (fields : Table) : (Check.field name (some default) check fields).Honest := by
  unfold Check.field
  split
  · exact (h _).inside _
  · exact fun _ => ⟨default, rfl⟩

theorem Check.honest_noOthers (names : List Text) (fields : Table) :
    (Check.noOthers names fields).Honest := by
  unfold Check.noOthers
  split
  · exact fun _ => ⟨(), rfl⟩
  · next hne =>
    intro h
    exact absurd (List.map_eq_nil_iff.mp h) hne

theorem Check.honest_longText (least : Nat) (value : Value) :
    (Check.longText least value).Honest := by
  unfold Check.longText
  split
  · split
    · exact Checked.honest_fault _
    · split
      · exact Checked.honest_fault _
      · exact fun _ => ⟨_, rfl⟩
  · exact Checked.honest_fault _

theorem Check.honest_strictBool (value : Value) : (Check.strictBool value).Honest := by
  unfold Check.strictBool
  split
  · exact fun _ => ⟨_, rfl⟩
  · exact Checked.honest_fault _

theorem Check.place_of_mem_field {name : Text} {default : α} {check : Check α} {fields : Table}
    {fault : RecordFault} (h : fault ∈ (Check.field name (some default) check fields).found) :
    ∃ place, fault.place = .field name :: place := by
  unfold Check.field at h
  split at h
  · rw [Checked.found_inside] at h
    obtain ⟨f, -, rfl⟩ := List.mem_map.mp h
    exact ⟨f.place, rfl⟩
  · cases h

theorem Check.found_noOthers (names : List Text) (fields : Table) :
    (Check.noOthers names fields).found =
      ((Keyed.keys fields).filter fun name => !names.contains name).map fun name =>
        ⟨[.field name], .unknownField⟩ := by
  unfold Check.noOthers
  split
  · next h =>
    rw [h]
    rfl
  · rfl

theorem Check.found_items (check : Check α) (values : List Value) :
    (Check.items check 0 (.list values)).found =
      values.zipIdx.flatMap fun (v, i) => ((check v).inside (.item i)).found := by
  simp only [Check.items, Nat.not_lt_zero, if_false, List.append_nil, List.flatMap_map]
  split
  · next h => rw [List.isEmpty_iff.mp h]; rfl
  · rfl

end PropertyLayers
