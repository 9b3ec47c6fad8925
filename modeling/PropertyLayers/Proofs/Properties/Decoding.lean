import PropertyLayers.Proofs.Properties.Token

/-!
# What tokens are decoded to

Each token stands for one code point, but for a `\u`, which takes the four digits behind it along.
A text is decoded as its tokens are (`unescape_eq_ok_iff`), and where it cannot be decoded the
failure shows what stands behind the first `\u` that lacks its digits (`unescape_eq_error_iff`).
-/

namespace PropertyLayers.Properties

/-- What the tokens stand for. A `\u` stands, with the four digits behind it, for the code point of
that number, and any other escape for one code point of its own. -/
inductive Decodes : List Token → Text → Prop
  | nil : Decodes [] []
  | bare {c : CodePoint} {ts : List Token} {t : Text} (later : Decodes ts t) :
      Decodes (.bare c :: ts) (c :: t)
  | sign {e : CodePoint} {ts : List Token} {t : Text} (plain : e ≠ 'u') (later : Decodes ts t) :
      Decodes (.escape e :: ts) (escaped e :: t)
  | unicode {d₁ d₂ d₃ d₄ : CodePoint} {n : Nat} {ts : List Token} {t : Text}
      (digits : Text.hexValue? [d₁, d₂, d₃, d₄] = some n) (later : Decodes ts t) :
      Decodes (.escape 'u' :: ([d₁, d₂, d₃, d₄].map .bare ++ ts)) (CodePoint.ofNat n :: t)

theorem decodes_bare_iff {c : CodePoint} {ts : List Token} {decoded : Text} :
    Decodes (.bare c :: ts) decoded ↔ ∃ t, Decodes ts t ∧ c :: t = decoded := by
  constructor
  · rintro ⟨⟩
    exact ⟨_, ‹_›, rfl⟩
  · rintro ⟨t, ht, rfl⟩
    exact .bare ht

theorem decodes_sign_iff {e : CodePoint} (he : e ≠ 'u') {ts : List Token} {decoded : Text} :
    Decodes (.escape e :: ts) decoded ↔ ∃ t, Decodes ts t ∧ escaped e :: t = decoded := by
  constructor
  · intro h
    cases h with
    | sign _ later => exact ⟨_, later, rfl⟩
    | unicode => exact absurd rfl he
  · rintro ⟨t, ht, rfl⟩
    exact .sign he ht

theorem decodes_unicode_iff {d₁ d₂ d₃ d₄ : CodePoint} {n : Nat}
    (hn : Text.hexValue? [d₁, d₂, d₃, d₄] = some n) {ts : List Token} {decoded : Text} :
    Decodes (.escape 'u' :: ([d₁, d₂, d₃, d₄].map .bare ++ ts)) decoded ↔
      ∃ t, Decodes ts t ∧ CodePoint.ofNat n :: t = decoded := by
  constructor
  · intro h
    cases h with
    | sign plain => exact absurd rfl plain
    | unicode digits later =>
      rw [hn] at digits
      cases digits
      exact ⟨_, later, rfl⟩
  · rintro ⟨t, ht, rfl⟩
    exact .unicode hn ht

theorem startsWithHex_of_decodes {ts : List Token} {decoded : Text}
    (h : Decodes (.escape 'u' :: ts) decoded) : StartsWithHex ts := by
  cases h with
  | sign plain => exact absurd rfl plain
  | unicode digits _ =>
    exact ⟨_, _, _, _, _, rfl, isSome_hexValue?_iff.mp (by rw [digits]; rfl)⟩

theorem map_eq_ok_iff {ε α β : Type} {x : Except ε α} {f : α → β} {b : β} :
    x.map f = .ok b ↔ ∃ a, x = .ok a ∧ f a = b := by
  rcases x with e | a <;> simp [Except.map]

theorem tokens_digits {d₁ d₂ d₃ d₄ : CodePoint}
    (h : (Text.hexValue? [d₁, d₂, d₃, d₄]).isSome) (rest : Text) :
    tokens (d₁ :: d₂ :: d₃ :: d₄ :: rest) = [d₁, d₂, d₃, d₄].map Token.bare ++ tokens rest := by
  have hne : ∀ d ∈ [d₁, d₂, d₃, d₄], d ≠ backslash := fun _ => ne_backslash_of_hexValue? h
  rw [tokens_bare (hne d₁ (by simp)), tokens_bare (hne d₂ (by simp)),
    tokens_bare (hne d₃ (by simp)), tokens_bare (hne d₄ (by simp))]
  rfl

theorem not_startsWithHex_of_hexValue? {d₁ d₂ d₃ d₄ : CodePoint} {rest : Text}
    (h : Text.hexValue? [d₁, d₂, d₃, d₄] = none) :
    ¬ StartsWithHex (tokens (d₁ :: d₂ :: d₃ :: d₄ :: rest)) := by
  rw [startsWithHex_tokens_iff]
  rintro ⟨_, _, _, _, _, ⟨⟩, hvalue⟩
  rw [h] at hvalue
  cases hvalue

theorem not_startsWithHex_of_short {digits : Text}
    (h : ∀ d₁ d₂ d₃ d₄ rest, digits = d₁ :: d₂ :: d₃ :: d₄ :: rest → False) :
    ¬ StartsWithHex (tokens digits) := by
  rw [startsWithHex_tokens_iff]
  rintro ⟨d₁, d₂, d₃, d₄, rest, hdigits, -⟩
  exact h d₁ d₂ d₃ d₄ rest hdigits

/-- A text is decoded as its tokens are. -/
theorem unescape_eq_ok_iff (t : Text) :
    ∀ decoded, unescape t = .ok decoded ↔ Decodes (tokens t) decoded := by
  have hfault : ∀ {digits : Text} {e : BadEscape} {decoded : Text},
      ¬ StartsWithHex (tokens digits) →
        ((.error e : Except BadEscape Text) = .ok decoded
          ↔ Decodes (tokens (backslash :: CodePoint.ofChar 'u' :: digits)) decoded) := by
    intro digits e decoded hdigits
    rw [tokens_escape]
    exact iff_of_false nofun (mt startsWithHex_of_decodes hdigits)
  -- The reader takes six code points at once where there are five tokens, as no digit is a backslash.
  fun_induction unescape t with
  | case1 =>
    refine fun decoded => ⟨?_, ?_⟩ <;> rintro ⟨⟩
    · exact .nil
    · rfl
  | case2 =>
    intro decoded
    rw [tokens_dangling, decodes_bare_iff]
    constructor
    · rintro ⟨⟩
      exact ⟨[], .nil, rfl⟩
    · rintro ⟨t, ⟨⟩, rfl⟩
      rfl
  | case3 d₁ d₂ d₃ d₄ rest n hn ih =>
    intro decoded
    rw [map_eq_ok_iff, tokens_escape, tokens_digits (by rw [hn]; rfl), decodes_unicode_iff hn]
    simp only [ih]
  | case4 d₁ d₂ d₃ d₄ rest hn => exact fun _ => hfault (not_startsWithHex_of_hexValue? hn)
  | case5 digits hshort => exact fun _ => hfault (not_startsWithHex_of_short hshort)
  | case6 e rest he ih =>
    intro decoded
    simp only [map_eq_ok_iff, tokens_escape, decodes_sign_iff he, ih]
  | case7 c rest hc ih =>
    intro decoded
    simp only [map_eq_ok_iff, tokens_bare hc, decodes_bare_iff, ih]

/-- The first `\u` that lacks its digits has these code points behind it, four or all that are
left. -/
def FirstBad (ts : List Token) (e : BadEscape) : Prop :=
  ∃ before after, ts = before ++ .escape 'u' :: after
    ∧ (∀ front back, before = front ++ .escape 'u' :: back →
        StartsWithHex (back ++ .escape 'u' :: after))
    ∧ ¬ StartsWithHex after ∧ e.digits = (after.flatMap Token.text).take 4

theorem firstBad_cons {t : Token} {ts : List Token} {e : BadEscape} :
    FirstBad (t :: ts) e ↔
      t = .escape 'u' ∧ ¬ StartsWithHex ts ∧ e.digits = (ts.flatMap Token.text).take 4
        ∨ (t = .escape 'u' → StartsWithHex ts) ∧ FirstBad ts e := by
  constructor
  · rintro ⟨_ | ⟨u, before⟩, after, hts, hbefore, hafter, hdigits⟩
    · cases hts
      exact .inl ⟨rfl, hafter, hdigits⟩
    · cases hts
      refine .inr ⟨fun hu => hbefore [] before (by rw [hu]; rfl), before, after, rfl, ?_, hafter,
        hdigits⟩
      exact fun front back h => hbefore (t :: front) back (by rw [h]; rfl)
  · rintro (⟨rfl, hts, hdigits⟩ | ⟨hu, before, after, rfl, hbefore, hafter, hdigits⟩)
    · refine ⟨[], ts, rfl, fun front back h => ?_, hts, hdigits⟩
      cases front <;> cases h
    · refine ⟨t :: before, after, rfl, ?_, hafter, hdigits⟩
      rintro (_ | ⟨v, front⟩) back h
      · cases h
        exact hu rfl
      · cases h
        exact hbefore front back rfl

theorem firstBad_bare_iff {c : CodePoint} {ts : List Token} {e : BadEscape} :
    FirstBad (.bare c :: ts) e ↔ FirstBad ts e := by simp [firstBad_cons]

theorem not_firstBad_nil {e : BadEscape} : ¬ FirstBad [] e := by
  rintro ⟨before, after, hts, -⟩
  cases before <;> cases hts

theorem map_eq_error_iff {ε α β : Type} {x : Except ε α} {f : α → β} {e : ε} :
    x.map f = .error e ↔ x = .error e := by
  rcases x with e | a <;> simp [Except.map]

/-- Decoding fails at the first `\u` that lacks its digits. -/
theorem unescape_eq_error_iff (t : Text) :
    ∀ e, unescape t = .error e ↔ FirstBad (tokens t) e := by
  have hfault : ∀ {digits shown : Text}, ¬ StartsWithHex (tokens digits) → digits.take 4 = shown →
      ∀ e, (.error ⟨shown⟩ : Except BadEscape Text) = .error e
        ↔ FirstBad (tokens (backslash :: CodePoint.ofChar 'u' :: digits)) e := by
    rintro digits shown hdigits rfl ⟨shown⟩
    simp [tokens_escape, firstBad_cons, hdigits, flatMap_text_tokens, eq_comm]
  fun_induction unescape t with
  | case1 => exact fun _ => iff_of_false nofun not_firstBad_nil
  | case2 =>
    intro e
    rw [tokens_dangling, firstBad_bare_iff]
    exact iff_of_false nofun not_firstBad_nil
  | case3 d₁ d₂ d₃ d₄ rest n hn ih =>
    intro e
    have hstarts : StartsWithHex (tokens (d₁ :: d₂ :: d₃ :: d₄ :: rest)) :=
      startsWithHex_tokens_iff.mpr ⟨d₁, d₂, d₃, d₄, rest, rfl, by rw [hn]; rfl⟩
    have hpassed :
        FirstBad (tokens (d₁ :: d₂ :: d₃ :: d₄ :: rest)) e ↔ FirstBad (tokens rest) e := by
      rw [tokens_digits (by rw [hn]; rfl)]
      simp only [List.map_cons, List.map_nil, List.cons_append, List.nil_append, firstBad_bare_iff]
    rw [map_eq_error_iff, tokens_escape, firstBad_cons, hpassed, ih]
    simp [hstarts]
  | case4 d₁ d₂ d₃ d₄ rest hn => exact hfault (not_startsWithHex_of_hexValue? hn) rfl
  | case5 digits hshort =>
    refine hfault (not_startsWithHex_of_short hshort) ?_
    rcases digits with _ | ⟨d₁, _ | ⟨d₂, _ | ⟨d₃, _ | ⟨d₄, rest⟩⟩⟩⟩
    · rfl
    · rfl
    · rfl
    · rfl
    · exact (hshort d₁ d₂ d₃ d₄ rest rfl).elim
  | case6 f rest hf ih =>
    intro e
    rw [map_eq_error_iff, tokens_escape, firstBad_cons, ih]
    simp [hf]
  | case7 c rest hc ih =>
    intro e
    rw [map_eq_error_iff, tokens_bare hc, firstBad_bare_iff, ih]

end PropertyLayers.Properties
