import PropertyLayers.Proofs.Placeholder.Reachable

/-!
# Strict and lenient expansion

A strict expansion goes the way of the lenient one unless it meets a placeholder without a default
whose key has no value (`expandPieces_stopsShort`). There the strict one fails, and the lenient one
leaves the placeholder as it stands, so that it is still to be seen in what comes of the text
(`source_isInfix_of_lenient`). The lenient one fails at circular keys alone, and then the strict one
fails there or has failed before (`modes_agree`).
-/

namespace PropertyLayers

/-- The text itself, or the value of a key that it leads to. -/
def ComesIn (scope : Scope) (text other : Text) : Prop :=
  other = text ∨ ∃ key, LeadsTo scope (pieces text) key ∧ scope.get? key = some other

/-- The key at fault has no value, and stands without a default in a text that comes in. -/
structure MissingIn (scope : Scope) (text : Text) (e : UnexpandedPlaceholder) : Prop where
  fault : e.fault = .unresolvable
  comesIn : ComesIn scope text e.text
  plain : .placeholder ⟨e.key, none⟩ ∈ pieces e.text
  missing : scope.get? e.key = none

theorem MissingIn.of_value {scope : Scope} {text value : Text} {e : UnexpandedPlaceholder}
    {p : Placeholder} (hp : .placeholder p ∈ pieces text) (hk : scope.get? p.key = some value)
    (h : MissingIn scope value e) : MissingIn scope text e := by
  refine ⟨h.fault, .inr ?_, h.plain, h.missing⟩
  rcases h.comesIn with htext | ⟨key, hkey, htext⟩
  · exact ⟨p.key, .of_mem hp, htext ▸ hk⟩
  · exact ⟨key, .within hp hk hkey, htext⟩

/-- The strict outcome is the lenient one, or the failure at a missing key. -/
def StopsShort (scope : Scope) (text : Text) (lenient strict : Expansion) : Prop :=
  strict = lenient ∨ ∃ e, strict = .error e ∧ MissingIn scope text e

namespace StopsShort

variable {scope : Scope} {text : Text} {lenient strict : Expansion}

theorem map (f : Text → Text) (h : StopsShort scope text lenient strict) :
    StopsShort scope text (lenient.map f) (strict.map f) := by
  rcases h with rfl | ⟨e, rfl, hmissing⟩
  · exact .inl rfl
  · exact .inr ⟨e, rfl, hmissing⟩

theorem bind {value : Text} {p : Placeholder} {lenientWithin strictWithin : Expansion}
    (hp : .placeholder p ∈ pieces text) (hk : scope.get? p.key = some value)
    (hwithin : StopsShort scope value lenientWithin strictWithin)
    (h : StopsShort scope text lenient strict) :
    StopsShort scope text (lenientWithin.bind fun inner => lenient.map (inner ++ ·))
      (strictWithin.bind fun inner => strict.map (inner ++ ·)) := by
  rcases hwithin with rfl | ⟨e, rfl, hmissing⟩
  · rcases strictWithin with e | inner
    · exact .inl rfl
    · exact h.map (inner ++ ·)
  · exact .inr ⟨e, rfl, hmissing.of_value hp hk⟩

end StopsShort

theorem expandPieces_stopsShort (scope : Scope) (visiting : List Text) (text : Text)
    (ps : List Piece) (hps : ps ⊆ pieces text) :
    StopsShort scope text (expandPieces scope true visiting text ps)
      (expandPieces scope false visiting text ps) := by
  induction visiting, text, ps using expandPieces.induct scope true
    (fun visiting text => StopsShort scope text (expand scope true visiting text)
      (expand scope false visiting text)) with
  | case1 visiting text ih =>
    rw [expand, expand]
    exact ih (List.Subset.refl _)
  | case2 visiting text =>
    rw [expandPieces, expandPieces]
    exact .inl rfl
  | case3 visiting text c rest ih =>
    rw [expandPieces, expandPieces]
    exact (ih (List.subset_of_cons_subset hps)).map (c :: ·)
  | case4 visiting text p rest hv =>
    rw [expandPieces_circular hv, expandPieces_circular hv]
    exact .inl rfl
  | case5 visiting text p rest hv v hk ihv ih =>
    rw [expandPieces_value hv hk, expandPieces_value hv hk]
    exact .bind (hps List.mem_cons_self) hk ihv (ih (List.subset_of_cons_subset hps))
  | case6 visiting text p rest hv hk v hd ih =>
    rw [expandPieces_missing hv hk, expandPieces_missing hv hk, hd]
    exact (ih (List.subset_of_cons_subset hps)).map (v ++ ·)
  | case7 visiting text p rest hv hk hd _ _ =>
    -- Here the two part: the strict expansion fails, whatever comes of the rest.
    have hp : .placeholder ⟨p.key, none⟩ ∈ pieces text := by
      rw [← hd]
      exact hps List.mem_cons_self
    rw [expandPieces_missing hv hk, expandPieces_missing hv hk, hd]
    exact .inr ⟨_, rfl, rfl, .inl rfl, hp, hk⟩
  | case8 visiting text p rest hv hk hd hl => exact absurd rfl hl

theorem expand_stopsShort (scope : Scope) (visiting : List Text) (text : Text) :
    StopsShort scope text (expand scope true visiting text)
      (expand scope false visiting text) := by
  rw [expand, expand]
  exact expandPieces_stopsShort scope visiting text (pieces text) (List.Subset.refl _)

theorem circular_of_lenient {scope : Scope} {visiting : List Text} {text : Text}
    {e : UnexpandedPlaceholder} (h : expand scope true visiting text = .error e) :
    e.fault = .circular := by
  have hm := expand_modes scope visiting text
  rw [h] at hm
  generalize expand scope false visiting text = strict at hm
  cases hm with
  | failed circular => exact circular

/-- A placeholder at which the strict expansion fails is left by the lenient one if that ends
well. -/
theorem source_isInfix_of_lenient {scope : Scope} {visiting : List Text} {text result : Text}
    {e : UnexpandedPlaceholder} (hl : expand scope true visiting text = .ok result)
    (hs : expand scope false visiting text = .error e) :
    (Placeholder.mk e.key none).source <:+: result := by
  have hm := expand_modes scope visiting text
  rw [hl, hs] at hm
  cases hm with
  | @left out p _ leaves mem key _ =>
    obtain ⟨before, after, rfl⟩ := List.append_of_mem mem
    have hp : p = ⟨e.key, none⟩ := by
      rw [key, ← (leaves.bare p mem).2]
    rw [hp, List.flatMap_append, List.flatMap_cons]
    exact ⟨_, _, List.append_assoc ..⟩

/-- What is expanded strictly is expanded leniently to the same text. The lenient expansion fails at
circular keys alone, and then the strict one fails there or, before that, at a missing key. Where
only the strict one fails, it is at a missing key, whose placeholder is still to be seen in what the
lenient one gives. -/
theorem modes_agree (scope : Scope) (visiting : List Text) (text : Text) :
    (∀ result, expand scope false visiting text = .ok result →
        expand scope true visiting text = .ok result)
      ∧ (∀ e, expand scope true visiting text = .error e → e.fault = .circular
        ∧ ∃ e', expand scope false visiting text = .error e' ∧ (e' = e ∨ MissingIn scope text e'))
      ∧ ∀ result e, expand scope true visiting text = .ok result →
          expand scope false visiting text = .error e →
            MissingIn scope text e
              ∧ dollar :: openBrace :: (e.key ++ [closeBrace]) <:+: result := by
  have hstrict := expand_stopsShort scope visiting text
  refine ⟨fun result hs => ?_, fun e hl => ⟨circular_of_lenient hl, ?_⟩, fun result e hl hs => ?_⟩
  · rcases hstrict with heq | ⟨e, he, -⟩
    · exact heq ▸ hs
    · rw [he] at hs
      cases hs
  · rcases hstrict with heq | ⟨e', he', hmissing⟩
    · exact ⟨e, heq.trans hl, .inl rfl⟩
    · exact ⟨e', he', .inr hmissing⟩
  · refine ⟨?_, source_isInfix_of_lenient hl hs⟩
    rcases hstrict with heq | ⟨e', he', hmissing⟩
    · rw [heq, hl] at hs
      cases hs
    · cases hs.symm.trans he'
      exact hmissing

/-- The key that is missing stands before the one that is circular. -/
example :
    expand [.ofPairs [("a", "$\x7ba\x7d")]] true [] "$\x7bm\x7d$\x7ba\x7d" =
        .error ⟨"$\x7ba\x7d", "a", .circular⟩
      ∧ expand [.ofPairs [("a", "$\x7ba\x7d")]] false [] "$\x7bm\x7d$\x7ba\x7d" =
        .error ⟨"$\x7bm\x7d$\x7ba\x7d", "m", .unresolvable⟩ := by
  refine ⟨by cbv, by cbv⟩

end PropertyLayers
