import PropertyLayers.Proofs.Placeholder.Unchecked

/-!
# What an expansion reads

Of a scope, the expansion of a text reads the values of the keys that the text leads to, and of the
keys that are being visited it asks for these alone. So two scopes that agree on them lead to the
same keys (`AgreeFrom.leadsTo_iff`) and give the same outcome, down to the text and the key of a
failure (`expand_congr`).
-/

namespace PropertyLayers

section Reachable

variable {scope : Scope} {ps : List Piece} {key other : Text} {p : Placeholder}

theorem LeadsTo.of_mem (hp : .placeholder p ∈ ps) : LeadsTo scope ps p.key := ⟨p, hp, .refl⟩

theorem LeadsTo.refers (h : LeadsTo scope ps key) (hr : scope.RefersTo key other) :
    LeadsTo scope ps other := by
  obtain ⟨p, hp, hpath⟩ := h
  exact ⟨p, hp, hpath.tail hr⟩

theorem LeadsTo.within {value : Text} (hp : .placeholder p ∈ ps)
    (hk : scope.get? p.key = some value) (h : LeadsTo scope (pieces value) other) :
    LeadsTo scope ps other := ⟨p, hp, (h.of_value hk).to_reflTransGen⟩

/-- What holds of the keys of these pieces, and is passed on by values, holds of all keys that the
pieces lead to. -/
theorem LeadsTo.induct {motive : Text → Prop} (start : ∀ p, .placeholder p ∈ ps → motive p.key)
    (refers : ∀ key other, motive key → scope.RefersTo key other → motive other)
    (h : LeadsTo scope ps key) : motive key := by
  obtain ⟨p, hp, hpath⟩ := h
  induction hpath with
  | refl => exact start p hp
  | tail _ hr ih => exact refers _ _ ih hr

end Reachable

/-- The scopes have the same values for all keys that the pieces lead to in the first one. -/
def AgreeFrom (a b : Scope) (ps : List Piece) : Prop :=
  ∀ key, LeadsTo a ps key → a.get? key = b.get? key

namespace AgreeFrom

variable {a b : Scope} {ps : List Piece}

/-- In both scopes the pieces lead to the same keys. -/
theorem leadsTo_iff (h : AgreeFrom a b ps) (key : Text) :
    LeadsTo a ps key ↔ LeadsTo b ps key := by
  constructor
  · intro hkey
    have hboth : LeadsTo a ps key ∧ LeadsTo b ps key := by
      refine hkey.induct (motive := fun key => LeadsTo a ps key ∧ LeadsTo b ps key)
        (fun p hp => ⟨.of_mem hp, .of_mem hp⟩) ?_
      rintro key other ⟨ha, hb⟩ hr
      obtain ⟨value, hk, hp⟩ := id hr
      exact ⟨ha.refers hr, hb.refers ⟨value, h key ha ▸ hk, hp⟩⟩
    exact hboth.2
  · refine fun hkey => hkey.induct (fun p hp => .of_mem hp) ?_
    rintro key other ha ⟨value, hk, hp⟩
    exact ha.refers ⟨value, (h key ha).trans hk, hp⟩

end AgreeFrom

/-- Of what two expansions of the same pieces read, all is the same: the values, and which of the
keys are being visited. -/
structure ReadAlike (a b : Scope) (visiting others : List Text) (ps : List Piece) : Prop where
  values : AgreeFrom a b ps
  visited : ∀ key, LeadsTo a ps key → (key ∈ visiting ↔ key ∈ others)

namespace ReadAlike

variable {a b : Scope} {visiting others : List Text} {rest : List Piece} {p : Placeholder}

theorem of_cons {piece : Piece} (h : ReadAlike a b visiting others (piece :: rest)) :
    ReadAlike a b visiting others rest :=
  ⟨fun key hkey => h.values key hkey.cons, fun key hkey => h.visited key hkey.cons⟩

theorem of_value {value : Text} (h : ReadAlike a b visiting others (.placeholder p :: rest))
    (hk : a.get? p.key = some value) :
    ReadAlike a b (p.key :: visiting) (p.key :: others) (pieces value) := by
  have hwithin : ∀ {key}, LeadsTo a (pieces value) key → LeadsTo a (.placeholder p :: rest) key :=
    fun hkey => .within List.mem_cons_self hk hkey
  refine ⟨fun key hkey => h.values key (hwithin hkey), fun key hkey => ?_⟩
  rw [List.mem_cons, List.mem_cons, h.visited key (hwithin hkey)]

theorem mem_iff (h : ReadAlike a b visiting others (.placeholder p :: rest)) :
    p.key ∈ visiting ↔ p.key ∈ others := h.visited p.key (.of_mem List.mem_cons_self)

theorem get?_eq (h : ReadAlike a b visiting others (.placeholder p :: rest)) :
    a.get? p.key = b.get? p.key := h.values p.key (.of_mem List.mem_cons_self)

end ReadAlike

-- Both runs are taken step by step. What is visited grows alike in both, and so need be the same
-- only among the keys that are still to come.
theorem expandPieces_congr {a b : Scope} {lenient : Bool} (visiting : List Text) (text : Text)
    (ps : List Piece) :
    ∀ {others : List Text}, ReadAlike a b visiting others ps →
      expandPieces a lenient visiting text ps = expandPieces b lenient others text ps := by
  induction visiting, text, ps using expandPieces.induct a lenient
    (fun visiting text => ∀ others : List Text, ReadAlike a b visiting others (pieces text) →
      expand a lenient visiting text = expand b lenient others text) with
  | case1 visiting text ih others h =>
    rw [expand, expand]
    exact ih h
  | case2 visiting text =>
    intro others _
    rw [expandPieces, expandPieces]
  | case3 visiting text c rest ih =>
    intro others h
    rw [expandPieces, expandPieces, ih h.of_cons]
  | case4 visiting text p rest hv =>
    intro others h
    rw [expandPieces_circular hv, expandPieces_circular (h.mem_iff.mp hv)]
  | case5 visiting text p rest hv v hk ihv ih =>
    intro others h
    rw [expandPieces_value hv hk,
      expandPieces_value (mt h.mem_iff.mpr hv) (h.get?_eq.symm.trans hk), ihv _ (h.of_value hk),
      ih h.of_cons]
  | case6 visiting text p rest hv hk v hd ih =>
    intro others h
    rw [expandPieces_missing hv hk,
      expandPieces_missing (mt h.mem_iff.mpr hv) (h.get?_eq.symm.trans hk), ih h.of_cons]
  | case7 visiting text p rest hv hk hd hl ih =>
    intro others h
    rw [expandPieces_missing hv hk,
      expandPieces_missing (mt h.mem_iff.mpr hv) (h.get?_eq.symm.trans hk), ih h.of_cons]
  | case8 visiting text p rest hv hk hd hl =>
    intro others h
    rw [expandPieces_missing hv hk,
      expandPieces_missing (mt h.mem_iff.mpr hv) (h.get?_eq.symm.trans hk), hd]
    simp only [hl]
    rfl

/-- The outcome of an expansion depends on the values of the keys that the text leads to, and on
which of these are being visited, and on nothing else. -/
theorem expand_congr {a b : Scope} {text : Text} (hagree : AgreeFrom a b (pieces text)) :
    (∀ key, LeadsTo a (pieces text) key ↔ LeadsTo b (pieces text) key)
      ∧ ∀ (lenient : Bool) (visiting others : List Text),
        (∀ key, LeadsTo a (pieces text) key → (key ∈ visiting ↔ key ∈ others)) →
          expand a lenient visiting text = expand b lenient others text := by
  refine ⟨hagree.leadsTo_iff, fun lenient visiting others hvisited => ?_⟩
  rw [expand, expand]
  exact expandPieces_congr visiting text (pieces text) ⟨hagree, hvisited⟩

/-- The values of `a` and `b` refer to each other. -/
def circularScope : Scope :=
  [.ofPairs [("a", "$\x7bb\x7d"), ("b", "-$\x7ba\x7d"), ("c", "1")]]

/-- The same values for `a` and `b`, in other maps, and another one for `c`. -/
def circularLayers : Scope :=
  [.ofPairs [("b", "-$\x7ba\x7d")], .ofPairs [("b", "$\x7bc\x7d"), ("a", "$\x7bb\x7d"), ("c", "2")]]

theorem leadsTo_circularScope {key : Text}
    (h : LeadsTo circularScope (pieces "$\x7ba\x7d") key) :
    key = Text.ofString "a" ∨ key = Text.ofString "b" := by
  have htext : pieces "$\x7ba\x7d" = [.placeholder ⟨"a", none⟩] := by cbv
  have ha : circularScope.get? "a" = some (Text.ofString "$\x7bb\x7d") := by decide
  have hb : circularScope.get? "b" = some (Text.ofString "-$\x7ba\x7d") := by decide
  have hinA : pieces "$\x7bb\x7d" = [.placeholder ⟨"b", none⟩] := by cbv
  have hinB : pieces "-$\x7ba\x7d" = [.literal '-', .placeholder ⟨"a", none⟩] := by cbv
  refine h.induct (motive := fun key => key = Text.ofString "a" ∨ key = Text.ofString "b")
    (fun p hp => ?_) ?_
  · rw [htext] at hp
    simp_all
  · rintro key other (rfl | rfl) ⟨value, hk, p, hp, rfl⟩
    · rw [ha] at hk
      cases hk
      rw [hinA] at hp
      simp_all
    · rw [hb] at hk
      cases hk
      rw [hinB] at hp
      simp_all

/-- The key `c`, to which the text does not lead, has another value and is being visited. -/
theorem expand_congr_circularScope :
    AgreeFrom circularScope circularLayers (pieces "$\x7ba\x7d")
      ∧ circularScope.get? "c" ≠ circularLayers.get? "c"
      ∧ expand circularScope true [] "$\x7ba\x7d" =
        expand circularLayers true ["c"] "$\x7ba\x7d" := by
  have hagree : AgreeFrom circularScope circularLayers (pieces "$\x7ba\x7d") := by
    intro key hkey
    rcases leadsTo_circularScope hkey with rfl | rfl <;> decide
  refine ⟨hagree, by decide, (expand_congr hagree).2 true [] ["c"] fun key hkey => ?_⟩
  rcases leadsTo_circularScope hkey with rfl | rfl <;> decide

end PropertyLayers
