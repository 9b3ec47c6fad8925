import PropertyLayers.Proofs.Keyed
import PropertyLayers.Toml.Document

/-!
# Keys of a document

No table of a document, be it the root, an inner one or one in a list, holds a key twice
(`distinct_of_readDocument`). A draft starts empty and changes by putting entries into its tables
(`keepsDistinct_changeAt`), and inline tables grow in the same way.
-/

namespace PropertyLayers

/-- No table in the value, and not the value itself, holds a key twice. -/
inductive Value.Distinct : Value → Prop
  | plain {value : Value} : Toml.Draft.isNested value = false → Distinct value
  | list {items : List Value} : (∀ item ∈ items, Distinct item) → Distinct (.list items)
  | table {entries : Table} : (Keyed.keys entries).Nodup →
      (∀ entry ∈ entries, Distinct entry.2) → Distinct (.table entries)

namespace Value

theorem distinct_list_iff {items : List Value} :
    (Value.list items).Distinct ↔ ∀ item ∈ items, item.Distinct := by
  refine ⟨fun h => ?_, .list⟩
  cases h with
  | plain h => cases h
  | list h => exact h

theorem distinct_table_iff {entries : Table} :
    (Value.table entries).Distinct ↔
      (Keyed.keys entries).Nodup ∧ ∀ entry ∈ entries, entry.2.Distinct := by
  refine ⟨fun h => ?_, fun h => .table h.1 h.2⟩
  cases h with
  | plain h => cases h
  | table hkeys h => exact ⟨hkeys, h⟩

theorem distinct_nil : (Value.table []).Distinct := .table List.nodup_nil (by simp)

theorem Distinct.put {entries : Table} {value : Value} (h : (Value.table entries).Distinct)
    (hvalue : value.Distinct) (key : Text) :
    (Value.table (Keyed.put key value entries)).Distinct := by
  rw [distinct_table_iff] at h ⊢
  refine ⟨Keyed.nodup_keys_put h.1 key value, fun entry hm => ?_⟩
  rcases Keyed.mem_put hm with rfl | hm
  · exact hvalue
  · exact h.2 entry hm

theorem Distinct.of_find? {entries : Table} {key : Text} {value : Value}
    (h : (Value.table entries).Distinct) (hfind : Keyed.find? key entries = some value) :
    value.Distinct :=
  (distinct_table_iff.mp h).2 _ (Keyed.mem_of_find? hfind)

end Value

namespace Toml

/-! ## Changes of tables -/

/-- What the change makes of a table holds each key once if the table does. -/
def KeepsDistinct (change : Table → Option Table) : Prop :=
  ∀ before after, (Value.table before).Distinct → change before = some after →
    (Value.table after).Distinct

theorem keepsDistinct_some : KeepsDistinct some := by
  rintro before after h ⟨⟩
  exact h

theorem keepsDistinct_addEntry {value : Value} (hvalue : value.Distinct) (key : Text) :
    KeepsDistinct (addEntry key value) := by
  intro before after h hadd
  unfold addEntry at hadd
  split at hadd
  · cases hadd
  · cases hadd
    exact h.put hvalue key

theorem keepsDistinct_addItem (key : Text) : KeepsDistinct (addItem key) := by
  intro before after h hadd
  unfold addItem at hadd
  split at hadd
  · next items hfind =>
    cases hadd
    refine h.put (.list fun item hm => ?_) key
    rcases List.mem_append.mp hm with hm | hm
    · exact Value.distinct_list_iff.mp (h.of_find? hfind) item hm
    · rw [List.mem_singleton.mp hm]
      exact Value.distinct_nil
  · cases hadd
  · cases hadd
    refine h.put (.list fun item hm => ?_) key
    rw [List.mem_singleton.mp hm]
    exact Value.distinct_nil

theorem keepsDistinct_changeAt {change : Table → Option Table} (hchange : KeepsDistinct change)
    (throughLists : Bool) :
    ∀ path, KeepsDistinct (changeAt throughLists change path)
  | [] => hchange
  | key :: path => by
    intro before after h hat
    have ih : KeepsDistinct (changeAt throughLists change path) :=
      keepsDistinct_changeAt hchange throughLists path
    rw [changeAt] at hat
    split at hat
    · obtain ⟨inner, hinner, rfl⟩ := Option.map_eq_some_iff.mp hat
      exact h.put (ih _ _ Value.distinct_nil hinner) key
    · next old hfind =>
      obtain ⟨inner, hinner, rfl⟩ := Option.map_eq_some_iff.mp hat
      exact h.put (ih _ _ (h.of_find? hfind) hinner) key
    · next items hfind =>
      have hitems := Value.distinct_list_iff.mp (h.of_find? hfind)
      split at hat
      · split at hat
        · next old hlast =>
          obtain ⟨inner, hinner, rfl⟩ := Option.map_eq_some_iff.mp hat
          have hold := hitems _ (List.mem_of_getLast? hlast)
          refine h.put (.list fun item hm => ?_) key
          rcases List.mem_append.mp hm with hm | hm
          · exact hitems item (List.dropLast_subset _ hm)
          · rw [List.mem_singleton.mp hm]
            exact ih _ _ hold hinner
        · cases hat
      · cases hat
    · cases hat

/-! ## What readers give -/

namespace Reader

variable {α β : Type}

/-- Whatever the reader gives, it is of this kind. -/
def Yields (reader : Reader α) (kind : α → Prop) : Prop :=
  ∀ text value rest, reader text = .ok (value, rest) → kind value

theorem yields_pure {kind : α → Prop} {value : α} (h : kind value) :
    (pure value : Reader α).Yields kind := by
  rintro text _ rest ⟨⟩
  exact h

theorem yields_fail (kind : α → Prop) : (fail : Reader α).Yields kind := by
  rintro text value rest ⟨⟩

theorem yields_ofOption {kind : α → Prop} {value? : Option α}
    (h : ∀ value, value? = some value → kind value) : (ofOption value?).Yields kind := by
  cases value? with
  | none => exact yields_fail kind
  | some value => exact yields_pure (h value rfl)

theorem yields_any (reader : Reader α) : reader.Yields fun _ => True := fun _ _ _ _ => trivial

theorem Yields.bind {reader : Reader α} {next : α → Reader β} {kind : α → Prop}
    {kind' : β → Prop} (h : reader.Yields kind)
    (hnext : ∀ value, kind value → (next value).Yields kind') :
    (reader >>= next).Yields kind' := by
  intro text value rest hrun
  obtain ⟨middle, hreader, hrun⟩ : ∃ middle, reader text = .ok middle
      ∧ next middle.1 middle.2 = .ok (value, rest) := by
    change (reader text).bind (fun middle => next middle.1 middle.2) = _ at hrun
    rcases hr : reader text with fault | middle <;> rw [hr] at hrun
    · cases hrun
    · exact ⟨middle, rfl, hrun⟩
  exact hnext middle.1 (h _ _ _ hreader) _ _ _ hrun

/-- A reader goes on after one of which nothing has to be known. -/
theorem yields_after {reader : Reader α} {next : α → Reader β} {kind : β → Prop}
    (h : ∀ value, (next value).Yields kind) : (reader >>= next).Yields kind :=
  (yields_any reader).bind fun value _ => h value

theorem yields_ofOption_bind {value? : Option α} {next : α → Reader β} {kind : β → Prop}
    (h : ∀ value, value? = some value → (next value).Yields kind) :
    (ofOption value? >>= next).Yields kind :=
  (yields_ofOption fun _ hvalue => hvalue).bind h

/-- A reader goes on unless something stands against it. -/
theorem yields_unless {kind : α → Prop} {c : Prop} [Decidable c] {next : Unit → Reader α}
    (h : (next ()).Yields kind) : (if c then fail >>= next else next ()).Yields kind := by
  split
  · exact (yields_fail fun _ => False).bind fun _ h => h.elim
  · exact h

theorem yields_ite {kind : α → Prop} {c : Prop} [Decidable c] {yes no : Reader α}
    (hyes : yes.Yields kind) (hno : no.Yields kind) : (if c then yes else no).Yields kind := by
  split
  · exact hyes
  · exact hno

/-! ## Values -/

theorem yields_decimal (sign whole more : Text) :
    (decimal sign whole more).Yields Value.Distinct := by
  unfold decimal
  split
  · refine yields_ite ?_ ?_
    · exact fun _ _ _ h => nomatch h
    · exact yields_pure (.plain rfl)
  · exact yields_pure (.plain rfl)

theorem yields_numeric : numeric.Yields Value.Distinct := by
  unfold numeric
  refine yields_after fun text => ?_
  split
  · refine yields_after fun _ => yields_ite (yields_pure (.plain rfl)) (yields_fail _)
  · split
    · exact yields_after fun _ => yields_pure (.plain rfl)
    · split
      · exact yields_after fun _ => yields_decimal _ _ _
      · exact yields_after fun _ => yields_after fun _ => yields_pure (.plain rfl)

theorem yields_valueWith_itemsWith_entriesWith : ∀ fuel,
    (valueWith fuel).Yields Value.Distinct
      ∧ (itemsWith fuel).Yields (fun items => ∀ item ∈ items, item.Distinct)
      ∧ ∀ entries reserved, (Value.table entries).Distinct →
        (entriesWith fuel entries reserved).Yields fun entries => (Value.table entries).Distinct
  | 0 => ⟨yields_fail _, yields_fail _, fun _ _ _ => yields_fail _⟩
  | fuel + 1 => by
    obtain ⟨hvalue, hitems, hentries⟩ := yields_valueWith_itemsWith_entriesWith fuel
    refine ⟨?_, ?_, fun entries reserved h => ?_⟩
    · rw [valueWith]
      refine yields_after fun next => yields_ite ?_ ?_
      · exact yields_after fun _ => yields_pure (.plain rfl)
      refine yields_after fun isTrue => yields_ite (yields_pure (.plain rfl)) ?_
      refine yields_after fun isFalse => yields_ite (yields_pure (.plain rfl)) ?_
      refine yields_after fun isList => yields_ite ?_ ?_
      · refine yields_after fun _ => yields_after fun isEmpty => yields_ite ?_ ?_
        · exact yields_pure (.list (by simp))
        · exact hitems.bind fun items h => yields_pure (.list h)
      refine yields_after fun isTable => yields_ite ?_ yields_numeric
      refine yields_after fun _ => yields_after fun isEmpty => yields_ite ?_ ?_
      · exact yields_pure Value.distinct_nil
      · exact (hentries [] .none Value.distinct_nil).bind fun entries h => yields_pure h
    · rw [itemsWith]
      refine hvalue.bind fun item hitem => ?_
      have hone : ∀ other ∈ [item], other.Distinct := by simpa using hitem
      refine yields_after fun _ => yields_after fun isLast => yields_ite (yields_pure hone) ?_
      refine yields_after fun _ => yields_after fun _ => yields_after fun isLast => ?_
      refine yields_ite (yields_pure hone) (hitems.bind fun items h => yields_pure ?_)
      exact List.forall_mem_cons.mpr ⟨hitem, h⟩
    · rw [entriesWith]
      refine yields_after fun path => hvalue.bind fun value hvalue => ?_
      refine yields_unless (yields_ofOption_bind fun last _ => ?_)
      refine yields_ofOption_bind fun changed hchanged => ?_
      have hnew := keepsDistinct_changeAt (keepsDistinct_addEntry hvalue last) _ _ _ _ h hchanged
      refine yields_after fun _ => yields_after fun isLast => yields_ite (yields_pure hnew) ?_
      exact yields_after fun _ => yields_after fun _ => hentries _ _ hnew

theorem yields_value : value.Yields Value.Distinct :=
  yields_after fun _ => (yields_valueWith_itemsWith_entriesWith _).1

end Reader

/-! ## Documents -/

namespace Draft

/-- No table that has been read so far holds a key twice. -/
def Distinct (d : Draft) : Prop := (Value.table d.root).Distinct

variable {d d' : Draft} {path : KeyPath}

theorem distinct_assign {value : Value} (h : d.Distinct) (hvalue : value.Distinct)
    (hassign : d.assign path value = some d') : d'.Distinct := by
  simp only [assign, Option.bind_eq_bind, Option.bind_eq_some_iff] at hassign
  obtain ⟨last, -, reserved, -, hassign⟩ := hassign
  split at hassign
  · cases hassign
  · obtain ⟨root, hroot, hmade⟩ := Option.bind_eq_some_iff.mp hassign
    cases hmade
    exact keepsDistinct_changeAt (keepsDistinct_addEntry hvalue last) _ _ _ _ h hroot

theorem distinct_openTable (h : d.Distinct) (hopen : d.openTable path = some d') :
    d'.Distinct := by
  unfold openTable at hopen
  split at hopen
  · cases hopen
  · obtain ⟨root, hroot, hmade⟩ := Option.bind_eq_some_iff.mp hopen
    cases hmade
    exact keepsDistinct_changeAt keepsDistinct_some _ _ _ _ h hroot

theorem distinct_openItem (h : d.Distinct) (hopen : d.openItem path = some d') :
    d'.Distinct := by
  unfold openItem at hopen
  split at hopen
  · cases hopen
  · obtain ⟨last, -, hopen⟩ := Option.bind_eq_some_iff.mp hopen
    obtain ⟨root, hroot, hmade⟩ := Option.bind_eq_some_iff.mp hopen
    cases hmade
    exact keepsDistinct_changeAt (keepsDistinct_addItem last) _ _ _ _ h hroot

end Draft

namespace Reader

theorem yields_entry {d : Draft} (h : d.Distinct) : (entry d).Yields Draft.Distinct := by
  unfold entry
  refine yields_after fun path => yields_value.bind fun value hvalue => ?_
  refine yields_ofOption_bind fun d' hassign => yields_after fun _ => yields_pure ?_
  exact Draft.distinct_assign h hvalue hassign

/-- What a header opens, read up to the end of the header. -/
theorem yields_opened {opened : KeyPath → Option Draft} {kind : Draft → Prop}
    (h : ∀ path d, opened path = some d → kind d) (closing : Text) :
    (do
      skipBlanks
      let d ← ofOption (opened (← key))
      expect closing
      skipBlanks
      return d : Reader Draft).Yields kind := by
  refine yields_after fun _ => yields_after fun path => yields_ofOption_bind fun d hopen => ?_
  exact yields_after fun _ => yields_after fun _ => yields_pure (h path d hopen)

theorem yields_header {d : Draft} (h : d.Distinct) : (header d).Yields Draft.Distinct := by
  unfold header
  have hopen : ∀ (double : Bool) path d',
      (if double then Draft.openItem { d with reserved := d.reserved.settle } path
        else Draft.openTable { d with reserved := d.reserved.settle } path) = some d' →
          d'.Distinct := by
    intro double path d' hopen
    have hsettled : Draft.Distinct { d with reserved := d.reserved.settle } := h
    split at hopen
    · exact Draft.distinct_openItem hsettled hopen
    · exact Draft.distinct_openTable hsettled hopen
  refine yields_after fun double => yields_ite ?_ (yields_opened (hopen double) _)
  exact yields_after fun _ => yields_opened (hopen double) _

theorem yields_statement {d : Draft} (h : d.Distinct) (next : CodePoint) :
    (statement d next).Yields Draft.Distinct :=
  yields_ite (yields_entry h) (yields_ite (yields_header h) (yields_ite (yields_pure h)
    (yields_fail _)))

theorem yields_statements :
    ∀ fuel {d : Draft}, d.Distinct → (statements fuel d).Yields Draft.Distinct
  | 0, _, _ => yields_fail _
  | fuel + 1, d, h => by
    rw [statements]
    refine yields_after fun _ => yields_after fun next? => ?_
    cases next? with
    | none => exact yields_pure h
    | some next =>
      refine yields_after fun isBlank => yields_ite (yields_statements fuel h) ?_
      refine (yields_statement h next).bind fun d' h' => ?_
      refine yields_after fun _ => yields_after fun isLine => ?_
      refine yields_ite (yields_statements fuel h') (yields_after fun next? => ?_)
      exact yields_ite (yields_pure h') (yields_fail _)

end Reader

/-- No table of a document holds a key twice. -/
theorem distinct_of_readDocument {text : Text} {table : Table}
    (h : readDocument text = .ok table) : (Value.table table).Distinct := by
  simp only [readDocument] at h
  rcases hread : Reader.statements ((unifyLineEnds text).length + 1) .empty (unifyLineEnds text)
    with fault | ⟨d, rest⟩ <;> rw [hread] at h
  · cases h
  · cases h
    have hempty : Draft.empty.Distinct := Value.distinct_nil
    exact Reader.yields_statements _ hempty _ _ _ hread

end Toml

end PropertyLayers
