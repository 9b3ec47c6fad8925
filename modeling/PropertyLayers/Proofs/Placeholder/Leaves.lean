import PropertyLayers.Placeholder.Expansion

/-!
# What an expansion leaves

A lenient expansion that ends well leaves single code points and the placeholders that have neither
a value nor a default (`Leaves.bare`). The strict expansion of the same pieces gives the same text
where no placeholder is left, and fails at one that is left otherwise; it fails as well where the
lenient one does (`expandPieces_modes`). Pieces that are left are not changed by a scope in which
their placeholders have no value either (`expandPieces_of_bare`), and a text without a dollar sign
is not changed by any (`expand_of_dollar_not_mem`).
-/

namespace PropertyLayers

def Piece.isLiteral : Piece → Bool
  | .literal _ => true
  | .placeholder _ => false

/-- The pieces that come to stand in place of these where every placeholder is expanded that has a
value or a default in the scope. -/
inductive Leaves (scope : Scope) : List Piece → List Piece → Prop
  | nil : Leaves scope [] []
  | literal {c : CodePoint} {rest out : List Piece} (later : Leaves scope rest out) :
      Leaves scope (.literal c :: rest) (.literal c :: out)
  | value {p : Placeholder} {value : Text} {rest inner out : List Piece}
      (held : scope.get? p.key = some value) (within : Leaves scope (pieces value) inner)
      (later : Leaves scope rest out) :
      Leaves scope (.placeholder p :: rest) (inner ++ out)
  | default {p : Placeholder} {value : Text} {rest out : List Piece}
      (missing : scope.get? p.key = none) (given : p.default? = some value)
      (later : Leaves scope rest out) :
      Leaves scope (.placeholder p :: rest) (value.map .literal ++ out)
  | kept {p : Placeholder} {rest out : List Piece} (missing : scope.get? p.key = none)
      (plain : p.default? = none) (later : Leaves scope rest out) :
      Leaves scope (.placeholder p :: rest) (.placeholder p :: out)

/-- Every placeholder among these pieces has neither a value in the scope nor a default. -/
def Bare (scope : Scope) (ps : List Piece) : Prop :=
  ∀ p, .placeholder p ∈ ps → scope.get? p.key = none ∧ p.default? = none

theorem Leaves.bare {scope : Scope} {ps out : List Piece} (h : Leaves scope ps out) :
    Bare scope out := by
  induction h with
  | nil => simp [Bare]
  | literal _ ih => simpa [Bare] using ih
  | value _ _ _ within later =>
    intro p hp
    rcases List.mem_append.mp hp with hp | hp
    · exact within p hp
    · exact later p hp
  | default _ _ _ ih =>
    intro p hp
    rcases List.mem_append.mp hp with hp | hp
    · simp at hp
    · exact ih p hp
  | kept missing plain _ ih =>
    intro p hp
    rcases List.mem_cons.mp hp with hp | hp
    · cases hp
      exact ⟨missing, plain⟩
    · exact ih p hp

theorem flatMap_source_literals (t : Text) : (t.map Piece.literal).flatMap Piece.source = t := by
  rw [List.flatMap_map]
  exact List.flatMap_singleton' t

section Steps

variable {scope : Scope} {lenient : Bool} {visiting : List Text} {text : Text} {p : Placeholder}
  {rest : List Piece}

theorem expandPieces_circular (hv : p.key ∈ visiting) :
    expandPieces scope lenient visiting text (.placeholder p :: rest) =
      .error ⟨text, p.key, .circular⟩ := by
  rw [expandPieces, dif_pos hv]

theorem expandPieces_value {value : Text} (hv : p.key ∉ visiting)
    (hk : scope.get? p.key = some value) :
    expandPieces scope lenient visiting text (.placeholder p :: rest) =
      (expand scope lenient (p.key :: visiting) value).bind fun inner =>
        (expandPieces scope lenient visiting text rest).map (inner ++ ·) := by
  rw [expandPieces, dif_neg hv]
  split
  · rename_i v hs
    rw [hk] at hs
    cases hs
    rfl
  · rename_i hn
    rw [hk] at hn
    cases hn

theorem expandPieces_missing (hv : p.key ∉ visiting) (hk : scope.get? p.key = none) :
    expandPieces scope lenient visiting text (.placeholder p :: rest) =
      match p.default? with
      | some value => (expandPieces scope lenient visiting text rest).map (value ++ ·)
      | none =>
        if lenient then (expandPieces scope lenient visiting text rest).map (p.source ++ ·)
        else .error ⟨text, p.key, .unresolvable⟩ := by
  rw [expandPieces, dif_neg hv]
  split
  · rename_i v hs
    rw [hk] at hs
    cases hs
  · rfl

end Steps

/-- The outcomes of the lenient and of the strict expansion of the same pieces, side by side. -/
inductive Modes (scope : Scope) (ps : List Piece) :
    Except UnexpandedPlaceholder Text → Except UnexpandedPlaceholder Text → Prop
  | failed {e e' : UnexpandedPlaceholder} (circular : e.fault = .circular) :
      Modes scope ps (.error e) (.error e')
  | clear {out : List Piece} (leaves : Leaves scope ps out)
      (literals : ∀ piece ∈ out, piece.isLiteral) :
      Modes scope ps (.ok (out.flatMap Piece.source)) (.ok (out.flatMap Piece.source))
  | left {out : List Piece} {p : Placeholder} {e : UnexpandedPlaceholder}
      (leaves : Leaves scope ps out) (mem : .placeholder p ∈ out) (key : e.key = p.key)
      (unresolvable : e.fault = .unresolvable) :
      Modes scope ps (.ok (out.flatMap Piece.source)) (.error e)

namespace Modes

variable {scope : Scope} {ps rest : List Piece}
  {lenient strict : Except UnexpandedPlaceholder Text}

/-- Literal pieces in front change neither outcome but for their text. -/
theorem prepend (front : List Piece)
    (hl : ∀ out, Leaves scope rest out → Leaves scope ps (front ++ out))
    (hf : ∀ piece ∈ front, piece.isLiteral) (h : Modes scope rest lenient strict) :
    Modes scope ps (lenient.map (front.flatMap Piece.source ++ ·))
      (strict.map (front.flatMap Piece.source ++ ·)) := by
  cases h with
  | failed circular => exact .failed circular
  | clear leaves literals =>
    have h := Modes.clear (hl _ leaves) fun piece hp =>
      (List.mem_append.mp hp).elim (hf piece) (literals piece)
    rw [List.flatMap_append] at h
    exact h
  | left leaves mem key unresolvable =>
    have h := Modes.left (hl _ leaves) (List.mem_append_right _ mem) key unresolvable
    rw [List.flatMap_append] at h
    exact h

/-- What comes first may decide the strict outcome; the lenient one goes on with what is behind. -/
theorem behind {first : Text} {e : UnexpandedPlaceholder}
    (h : Modes scope rest lenient strict)
    (hleft : ∀ {out}, Leaves scope rest out →
      Modes scope ps (.ok (first ++ out.flatMap Piece.source)) (.error e)) :
    Modes scope ps (lenient.map (first ++ ·)) (.error e) := by
  cases h with
  | failed circular => exact .failed circular
  | clear leaves _ => exact hleft leaves
  | left leaves _ _ _ => exact hleft leaves

theorem keep {p : Placeholder} {text : Text} (hk : scope.get? p.key = none)
    (hd : p.default? = none) (h : Modes scope rest lenient strict) :
    Modes scope (.placeholder p :: rest) (lenient.map (p.source ++ ·))
      (.error ⟨text, p.key, .unresolvable⟩) :=
  h.behind fun leaves => .left (.kept hk hd leaves) List.mem_cons_self rfl rfl

theorem value {p : Placeholder} {v : Text}
    {lenientWithin strictWithin : Except UnexpandedPlaceholder Text}
    (hk : scope.get? p.key = some v) (hw : Modes scope (pieces v) lenientWithin strictWithin)
    (h : Modes scope rest lenient strict) :
    Modes scope (.placeholder p :: rest)
      (lenientWithin.bind fun inner => lenient.map (inner ++ ·))
      (strictWithin.bind fun inner => strict.map (inner ++ ·)) := by
  cases hw with
  | failed circular => exact .failed circular
  | @clear inner within literals =>
    exact h.prepend inner (fun out later => .value hk within later) literals
  | @left inner q e within mem key unresolvable =>
    refine h.behind fun {out} later => ?_
    rw [← List.flatMap_append]
    exact .left (.value hk within later) (List.mem_append_left _ mem) key unresolvable

end Modes

/-- The strict expansion of pieces follows the lenient one up to a placeholder that is left. -/
theorem expandPieces_modes (scope : Scope) (visiting : List Text) (text : Text)
    (ps : List Piece) :
    Modes scope ps (expandPieces scope true visiting text ps)
      (expandPieces scope false visiting text ps) := by
  induction visiting, text, ps using expandPieces.induct scope true
    (fun visiting text => Modes scope (pieces text)
      (expand scope true visiting text) (expand scope false visiting text)) with
  | case1 visiting text ih =>
    rw [expand, expand]
    exact ih
  | case2 visiting text =>
    rw [expandPieces, expandPieces]
    exact .clear .nil (by simp)
  | case3 visiting text c rest ih =>
    rw [expandPieces, expandPieces]
    exact ih.prepend [.literal c] (fun out later => .literal later) (by simp [Piece.isLiteral])
  | case4 visiting text p rest hv =>
    rw [expandPieces_circular hv, expandPieces_circular hv]
    exact .failed rfl
  | case5 visiting text p rest hv v hk ihv ih =>
    rw [expandPieces_value hv hk, expandPieces_value hv hk]
    exact .value hk ihv ih
  | case6 visiting text p rest hv hk v hd ih =>
    rw [expandPieces_missing hv hk, expandPieces_missing hv hk, hd]
    have h := ih.prepend (v.map .literal) (fun out later => .default hk hd later)
      (by simp [Piece.isLiteral])
    rw [flatMap_source_literals] at h
    exact h
  | case7 visiting text p rest hv hk hd _ ih =>
    rw [expandPieces_missing hv hk, expandPieces_missing hv hk, hd]
    exact .keep hk hd ih
  | case8 visiting text p rest hv hk hd hl => exact absurd rfl hl

theorem expand_modes (scope : Scope) (visiting : List Text) (text : Text) :
    Modes scope (pieces text) (expand scope true visiting text)
      (expand scope false visiting text) := by
  rw [expand, expand]
  exact expandPieces_modes scope visiting text (pieces text)

section BarePieces

variable {scope : Scope} {text : Text}

/-- A lenient expansion leaves pieces as they are that have nothing to be expanded. -/
theorem expandPieces_of_bare :
    ∀ {ps : List Piece}, Bare scope ps →
      expandPieces scope true [] text ps = .ok (ps.flatMap Piece.source)
  | [], _ => by rw [expandPieces, List.flatMap_nil]
  | .literal c :: rest, h => by
    have ih := expandPieces_of_bare fun p hp => h p (List.mem_cons_of_mem _ hp)
    rw [expandPieces, ih]
    rfl
  | .placeholder p :: rest, h => by
    have ih := expandPieces_of_bare fun p hp => h p (List.mem_cons_of_mem _ hp)
    obtain ⟨hk, hd⟩ := h p List.mem_cons_self
    rw [expandPieces_missing (List.not_mem_nil) hk, hd, ih]
    rfl

theorem expandPieces_of_literals (lenient : Bool) (visiting : List Text) :
    ∀ {ps : List Piece}, (∀ piece ∈ ps, piece.isLiteral) →
      expandPieces scope lenient visiting text ps = .ok (ps.flatMap Piece.source)
  | [], _ => by rw [expandPieces, List.flatMap_nil]
  | .literal c :: rest, h => by
    have ih := expandPieces_of_literals lenient visiting
      fun piece hp => h piece (List.mem_cons_of_mem _ hp)
    rw [expandPieces, ih]
    rfl
  | .placeholder p :: rest, h => by
    have := h (.placeholder p) List.mem_cons_self
    simp [Piece.isLiteral] at this

/-- A text falls into single code points where one is missing that every placeholder holds. -/
theorem isLiteral_of_not_mem {c : CodePoint} (hc : ∀ p : Placeholder, c ∈ p.source) {text : Text}
    (h : c ∉ text) : ∀ piece ∈ pieces text, piece.isLiteral := by
  intro piece hp
  rcases piece with d | p
  · rfl
  · have hd : c ∈ (pieces text).flatMap Piece.source :=
      List.mem_flatMap.mpr ⟨.placeholder p, hp, hc p⟩
    rw [flatMap_source_pieces] at hd
    exact absurd hd h

theorem expand_of_not_mem {c : CodePoint} (hc : ∀ p : Placeholder, c ∈ p.source) (lenient : Bool)
    (visiting : List Text) {text : Text} (h : c ∉ text) :
    expand scope lenient visiting text = .ok text := by
  rw [expand, expandPieces_of_literals lenient visiting (isLiteral_of_not_mem hc h),
    flatMap_source_pieces]

/-- Nothing is expanded where there is no dollar sign. -/
theorem expand_of_dollar_not_mem (lenient : Bool) (visiting : List Text) {text : Text}
    (h : dollar ∉ text) : expand scope lenient visiting text = .ok text :=
  expand_of_not_mem (fun _ => List.mem_cons_self) lenient visiting h

/-- A strict expansion fails at a placeholder that has neither a value nor a default. -/
theorem expandPieces_strict_of_bare {p : Placeholder} :
    ∀ {ps : List Piece}, Bare scope ps → .placeholder p ∈ ps →
      ∃ e, expandPieces scope false [] text ps = .error e
  | .literal c :: rest, h, hp => by
    have hp : .placeholder p ∈ rest := by simpa using hp
    obtain ⟨e, he⟩ :=
      expandPieces_strict_of_bare (fun q hq => h q (List.mem_cons_of_mem _ hq)) hp
    rw [expandPieces, he]
    exact ⟨e, rfl⟩
  | .placeholder q :: rest, h, _ => by
    obtain ⟨hk, hd⟩ := h q List.mem_cons_self
    rw [expandPieces_missing List.not_mem_nil hk, hd]
    exact ⟨_, rfl⟩

end BarePieces

end PropertyLayers
