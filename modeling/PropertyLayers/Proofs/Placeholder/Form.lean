import PropertyLayers.Proofs.Placeholder.Leaves

/-!
# Texts that hold a placeholder

A placeholder that is well-formed is found where it stands, whatever follows it
(`ofPrefix?_eq_some_iff`). So a text holds one anywhere exactly where it does not fall into single
code points (`forall_isLiteral_iff`), and a text that holds none is expanded to itself in every
scope (`expand_of_not_holds`).
-/

namespace PropertyLayers

namespace Placeholder

/-- It can be read back as it stands in a text. -/
structure WellFormed (p : Placeholder) : Prop where
  key_ne_nil : p.key ≠ []
  inKey_key : ∀ c ∈ p.key, inKey c
  not_mem_default : ∀ value, p.default? = some value → closeBrace ∉ value

theorem WellFormed.takeWhile_append {p : Placeholder} (h : p.WellFormed) {c : CodePoint}
    (hc : inKey c = false) (rest : Text) : (p.key ++ c :: rest).takeWhile inKey = p.key := by
  rw [List.takeWhile_append_of_pos h.inKey_key, List.takeWhile_cons_of_neg (by simp [hc]),
    List.append_nil]

theorem WellFormed.dropWhile_append {p : Placeholder} (h : p.WellFormed) {c : CodePoint}
    (hc : inKey c = false) (rest : Text) : (p.key ++ c :: rest).dropWhile inKey = c :: rest := by
  rw [List.dropWhile_append_of_pos h.inKey_key, List.dropWhile_cons_of_neg (by simp [hc])]

theorem ofPrefix?_source_append {p : Placeholder} (h : p.WellFormed) (rest : Text) :
    ofPrefix? (p.source ++ rest) = some (p, rest) := by
  have hkey : p.key.isEmpty = false := by simpa using h.key_ne_nil
  have hstart : ∀ s, ofPrefix? (dollar :: openBrace :: s) = body? s := fun s => by simp [ofPrefix?]
  rcases hd : p.default? with _ | value
  · have hsource : p.source ++ rest = dollar :: openBrace :: (p.key ++ closeBrace :: rest) := by
      simp [source, hd]
    rw [hsource, hstart, body?, h.takeWhile_append rfl, h.dropWhile_append rfl, hkey, ← hd]
    rfl
  · have hsource : p.source ++ rest =
        dollar :: openBrace :: (p.key ++ colon :: (value ++ closeBrace :: rest)) := by
      simp [source, hd]
    have hvalue : ∀ c ∈ value, decide (c ≠ closeBrace) := fun c hc =>
      decide_eq_true (ne_of_mem_of_not_mem hc (h.not_mem_default value hd))
    rw [hsource, hstart, body?, h.takeWhile_append rfl, h.dropWhile_append rfl, hkey]
    dsimp only
    rw [List.dropWhile_append_of_pos hvalue, List.takeWhile_append_of_pos hvalue]
    simp [colon, closeBrace, ← hd]

theorem wellFormed_of_body? {s rest : Text} {p : Placeholder} (h : body? s = some (p, rest)) :
    p.WellFormed := by
  have hkey : ∀ c ∈ s.takeWhile inKey, inKey c := List.all_eq_true.mp List.all_takeWhile
  simp only [body?] at h
  split at h
  · cases h
  · rename_i hne
    have hne : s.takeWhile inKey ≠ [] := by simpa using hne
    split at h
    · cases h
    · split at h
      · cases h
        exact ⟨hne, hkey, by simp⟩
      · split at h
        · cases h
        · cases h
          refine ⟨hne, hkey, fun value hd hm => ?_⟩
          cases hd
          have hall := List.all_eq_true.mp List.all_takeWhile _ hm
          simp at hall

theorem ofPrefix?_eq_some_iff {t rest : Text} {p : Placeholder} :
    ofPrefix? t = some (p, rest) ↔ p.WellFormed ∧ p.source ++ rest = t := by
  constructor
  · intro h
    refine ⟨?_, source_append_of_ofPrefix? h⟩
    unfold ofPrefix? at h
    split at h
    · split at h
      · exact wellFormed_of_body? h
      · cases h
    · cases h
  · rintro ⟨h, rfl⟩
    exact ofPrefix?_source_append h rest

theorem wellFormed_of_mem_pieces {t : Text} {p : Placeholder} (h : .placeholder p ∈ pieces t) :
    p.WellFormed := by
  fun_induction pieces t with
  | case1 => cases h
  | case2 c rest q after hq ih =>
    rcases List.mem_cons.mp h with h | h
    · cases h
      exact (ofPrefix?_eq_some_iff.mp hq).1
    · exact ih h
  | case3 c rest hnone ih => exact ih (by simpa using h)

theorem closeBrace_mem_source (p : Placeholder) : closeBrace ∈ p.source := by
  unfold source
  split <;> simp

end Placeholder

/-- A default is its own expansion, since no placeholder can stand in it. -/
theorem expand_default {text value : Text} {p : Placeholder} (hp : .placeholder p ∈ pieces text)
    (hd : p.default? = some value) (scope : Scope) (lenient : Bool) (visiting : List Text) :
    expand scope lenient visiting value = .ok value :=
  expand_of_not_mem Placeholder.closeBrace_mem_source lenient visiting
    ((Placeholder.wellFormed_of_mem_pieces hp).not_mem_default value hd)

/-- Somewhere in the text stands a placeholder. -/
def HoldsPlaceholder (t : Text) : Prop := ∃ p : Placeholder, p.WellFormed ∧ p.source <:+: t

theorem pieces_of_literal {t : Text} {c : CodePoint} {rest : List Piece}
    (h : pieces t = .literal c :: rest) :
    ∃ later, t = c :: later ∧ rest = pieces later ∧ Placeholder.ofPrefix? t = none := by
  rcases t with _ | ⟨d, later⟩
  · rw [pieces] at h
    cases h
  · rw [pieces] at h
    split at h
    · cases h
    · rename_i hnone
      cases h
      exact ⟨later, rfl, rfl, hnone⟩

theorem pieces_of_placeholder {t : Text} {p : Placeholder} {rest : List Piece}
    (h : pieces t = .placeholder p :: rest) :
    ∃ later, Placeholder.ofPrefix? t = some (p, later) ∧ rest = pieces later := by
  rcases t with _ | ⟨d, after⟩
  · rw [pieces] at h
    cases h
  · rw [pieces] at h
    split at h
    · rename_i later hsome
      cases h
      exact ⟨later, hsome, rfl⟩
    · cases h

theorem holdsPlaceholder_cons {c : CodePoint} {t : Text} :
    HoldsPlaceholder (c :: t) ↔
      (Placeholder.ofPrefix? (c :: t)).isSome ∨ HoldsPlaceholder t := by
  constructor
  · rintro ⟨p, hwell, hp⟩
    rcases List.infix_cons_iff.mp hp with ⟨rest, hrest⟩ | hp
    · rw [← hrest, Placeholder.ofPrefix?_source_append hwell]
      exact .inl rfl
    · exact .inr ⟨p, hwell, hp⟩
  · rintro (hp | ⟨p, hwell, hp⟩)
    · obtain ⟨⟨p, rest⟩, hp⟩ := Option.isSome_iff_exists.mp hp
      obtain ⟨hwell, hsource⟩ := Placeholder.ofPrefix?_eq_some_iff.mp hp
      exact ⟨p, hwell, [], rest, hsource⟩
    · exact ⟨p, hwell, hp.trans (List.suffix_cons c t).isInfix⟩

/-- A text falls into single code points exactly where it holds no placeholder. -/
theorem forall_isLiteral_iff (t : Text) :
    (∀ piece ∈ pieces t, piece.isLiteral) ↔ ¬ HoldsPlaceholder t := by
  fun_induction pieces t with
  | case1 =>
    refine iff_of_true (by simp) ?_
    rintro ⟨p, -, hp⟩
    cases List.infix_nil.mp hp
  | case2 c rest p after h ih =>
    rw [holdsPlaceholder_cons, h]
    simp [Piece.isLiteral]
  | case3 c rest h ih =>
    rw [holdsPlaceholder_cons, h, List.forall_mem_cons, ih]
    simp [Piece.isLiteral]

theorem expand_of_not_holds {scope : Scope} (lenient : Bool) (visiting : List Text) {t : Text}
    (h : ¬ HoldsPlaceholder t) : expand scope lenient visiting t = .ok t := by
  rw [expand, expandPieces_of_literals lenient visiting ((forall_isLiteral_iff t).mpr h),
    flatMap_source_pieces]

end PropertyLayers
