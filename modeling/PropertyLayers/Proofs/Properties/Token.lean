import PropertyLayers.Proofs.Properties.Written

/-!
# The tokens of a logical line

A backslash and the code point behind it are one token, and any other code point is one on its own.
Everything that reads a line agrees on its tokens: the key ends at a bare separator or spacing
(`tokens_takeKey`), the value follows what is bare behind it (`tokens_takeValue`), a separator
counts if it is bare (`hasBareSeparator_eq_any`), and a text can be decoded where each `\u` is
followed by four bare hexadecimal digits (`exists_unescape_iff`).
-/

namespace PropertyLayers.Properties

/-- A backslash at the end of a line stands bare. -/
inductive Token where
  | bare (c : CodePoint)
  | escape (c : CodePoint)

namespace Token

def text : Token → Text
  | bare c => [c]
  | escape c => [backslash, c]

def isBare (p : CodePoint → Bool) : Token → Bool
  | bare c => p c
  | escape _ => false

def isKeyPart (t : Token) : Bool := !t.isBare fun c => isSeparator c || isSpacing c

end Token

def tokens : Text → List Token
  | [] => []
  | c :: rest =>
    if c = '\\' then
      match rest with
      | [] => [.bare c]
      | e :: rest => .escape e :: tokens rest
    else .bare c :: tokens rest

def keyTokens (line : Text) : List Token := (tokens line).takeWhile Token.isKeyPart

/-- Behind the key stand spacing, at most one separator and, after a separator, spacing again. -/
def valueTokens (line : Text) : List Token :=
  match ((tokens line).dropWhile Token.isKeyPart).dropWhile (Token.isBare isSpacing) with
  | [] => []
  | t :: rest =>
    if t.isBare isSeparator then rest.dropWhile (Token.isBare isSpacing) else t :: rest

/-- Four bare hexadecimal digits come first. -/
def StartsWithHex (ts : List Token) : Prop :=
  ∃ (d₁ d₂ d₃ d₄ : CodePoint) (rest : List Token),
    ts = [d₁, d₂, d₃, d₄].map Token.bare ++ rest ∧ ∀ d ∈ [d₁, d₂, d₃, d₄], d.hexDigit?.isSome

/-- Every `\u` is followed by four hexadecimal digits. -/
def WellFormed (ts : List Token) : Prop :=
  ∀ before after, ts = before ++ .escape 'u' :: after → StartsWithHex after

/-! ## Tokens and texts -/

/-- Induction on a line, token by token. -/
@[elab_as_elim]
theorem tokenInduction {motive : Text → Prop} (nil : motive []) (dangling : motive [backslash])
    (escape : ∀ e rest, motive rest → motive (backslash :: e :: rest))
    (bare : ∀ c rest, c ≠ backslash → motive rest → motive (c :: rest)) : ∀ t, motive t
  | [] => nil
  | c :: rest => by
    by_cases hc : c = backslash
    · subst hc
      rcases rest with _ | ⟨e, rest⟩
      · exact dangling
      · exact escape e rest (tokenInduction nil dangling escape bare rest)
    · exact bare c rest hc (tokenInduction nil dangling escape bare rest)

theorem tokens_bare {c : CodePoint} (h : c ≠ backslash) (rest : Text) :
    tokens (c :: rest) = .bare c :: tokens rest := by
  rw [tokens.eq_def]
  exact if_neg h

theorem tokens_escape (e : CodePoint) (rest : Text) :
    tokens (backslash :: e :: rest) = .escape e :: tokens rest := by
  rw [tokens.eq_def]
  exact if_pos rfl

theorem tokens_dangling : tokens [backslash] = [.bare backslash] := rfl

theorem flatMap_text_tokens (t : Text) : (tokens t).flatMap Token.text = t := by
  induction t using tokenInduction with
  | nil => rfl
  | dangling => rfl
  | escape e rest ih =>
    rw [tokens_escape, List.flatMap_cons, ih]
    rfl
  | bare c rest h ih =>
    rw [tokens_bare h, List.flatMap_cons, ih]
    rfl

theorem tokens_eq_nil_iff {t : Text} : tokens t = [] ↔ t = [] := by
  refine ⟨fun h => ?_, fun h => h ▸ rfl⟩
  rw [← flatMap_text_tokens t, h]
  rfl

/-! ## Where a line is cut -/

/-- The key and what follows it are cut between two tokens. -/
theorem tokens_takeKey (line : Text) :
    tokens (takeKey line).1 = keyTokens line
      ∧ tokens (takeKey line).2 = (tokens line).dropWhile Token.isKeyPart := by
  unfold keyTokens
  induction line using tokenInduction with
  | nil => exact ⟨rfl, rfl⟩
  | dangling => exact ⟨rfl, rfl⟩
  | escape e rest ih =>
    have hkey : takeKey (backslash :: e :: rest) =
        (backslash :: e :: (takeKey rest).1, (takeKey rest).2) := by
      rw [takeKey.eq_def]
      exact if_pos rfl
    have hpart : (Token.escape e).isKeyPart := rfl
    rw [hkey, tokens_escape, tokens_escape, List.takeWhile_cons_of_pos hpart,
      List.dropWhile_cons_of_pos hpart, ih.1, ih.2]
    exact ⟨rfl, rfl⟩
  | bare c rest h ih =>
    rw [tokens_bare h, takeKey.eq_def]
    simp only [h, if_false]
    by_cases hend : (isSeparator c || isSpacing c) = true
    · have hpart : ¬ (Token.bare c).isKeyPart := by simp [Token.isKeyPart, Token.isBare, hend]
      rw [if_pos hend, List.takeWhile_cons_of_neg hpart, List.dropWhile_cons_of_neg hpart,
        tokens_bare h]
      exact ⟨rfl, rfl⟩
    · have hpart : (Token.bare c).isKeyPart := by simp [Token.isKeyPart, Token.isBare, hend]
      rw [if_neg hend, List.takeWhile_cons_of_pos hpart, List.dropWhile_cons_of_pos hpart]
      dsimp only
      rw [tokens_bare h, ih.1, ih.2]
      exact ⟨rfl, rfl⟩

theorem tokens_dropSpacing (t : Text) :
    tokens (dropSpacing t) = (tokens t).dropWhile (Token.isBare isSpacing) := by
  unfold dropSpacing
  induction t using tokenInduction with
  | nil => rfl
  | dangling => rfl
  | escape e rest _ =>
    have hpart : ¬ (Token.escape e).isBare isSpacing := by simp [Token.isBare]
    rw [tokens_escape, List.dropWhile_cons_of_neg hpart, List.dropWhile_cons_of_neg (by decide),
      tokens_escape]
  | bare c rest h ih =>
    rw [tokens_bare h]
    by_cases hc : isSpacing c
    · rw [List.dropWhile_cons_of_pos hc, ih, List.dropWhile_cons_of_pos]
      exact hc
    · rw [List.dropWhile_cons_of_neg hc, tokens_bare h, List.dropWhile_cons_of_neg]
      exact hc

theorem tokens_takeValue (line : Text) :
    tokens (takeValue (takeKey line).2).1 = valueTokens line := by
  have hafter := tokens_dropSpacing (takeKey line).2
  rw [(tokens_takeKey line).2] at hafter
  unfold takeValue valueTokens
  rw [← hafter]
  generalize dropSpacing (takeKey line).2 = after
  cases after using tokenInduction with
  | nil => rfl
  | dangling => rfl
  | escape e rest =>
    rw [tokens_escape]
    rfl
  | bare c rest h =>
    rw [tokens_bare h]
    dsimp only
    by_cases hc : isSeparator c
    · rw [if_pos hc, if_pos (by exact hc)]
      exact tokens_dropSpacing rest
    · rw [if_neg hc, if_neg (by exact hc)]
      exact tokens_bare h rest

theorem hasBareSeparator_eq_any (line : Text) :
    hasBareSeparator line = (tokens line).any (Token.isBare isSeparator) := by
  induction line using tokenInduction with
  | nil => rfl
  | dangling => rfl
  | escape e rest ih =>
    rw [tokens_escape, List.any_cons, ← ih, hasBareSeparator.eq_def]
    rfl
  | bare c rest h ih =>
    rw [tokens_bare h, List.any_cons, ← ih, hasBareSeparator.eq_def]
    exact if_neg h

/-! ## What can be decoded -/

theorem wellFormed_cons {t : Token} {ts : List Token} :
    WellFormed (t :: ts) ↔ (t = .escape 'u' → StartsWithHex ts) ∧ WellFormed ts := by
  constructor
  · intro h
    refine ⟨fun ht => h [] ts (by rw [ht]; rfl), fun before after hts => ?_⟩
    exact h (t :: before) after (by rw [hts]; rfl)
  · rintro ⟨hfirst, hrest⟩ before after hts
    rcases before with _ | ⟨first, before⟩
    · cases hts
      exact hfirst rfl
    · cases hts
      exact hrest before after rfl

theorem wellFormed_bare_cons {c : CodePoint} {ts : List Token} :
    WellFormed (.bare c :: ts) ↔ WellFormed ts := by simp [wellFormed_cons]

theorem isSome_hexValue?_iff {digits : Text} :
    (Text.hexValue? digits).isSome ↔ ∀ d ∈ digits, d.hexDigit?.isSome := by
  have hfold : ∀ (digits : Text) (n : Nat),
      (digits.foldlM (fun n (c : CodePoint) => c.hexDigit?.map (n * 16 + ·)) n).isSome ↔
        ∀ d ∈ digits, d.hexDigit?.isSome := by
    intro digits
    induction digits with
    | nil => simp
    | cons d digits ih =>
      intro n
      rw [List.foldlM_cons, List.forall_mem_cons]
      rcases d.hexDigit? with _ | value
      · simp
      · simpa using ih (n * 16 + value)
  exact hfold digits 0

theorem ne_backslash_of_hexValue? {digits : Text} {d : CodePoint}
    (h : (Text.hexValue? digits).isSome) (hd : d ∈ digits) : d ≠ backslash := by
  rintro rfl
  cases isSome_hexValue?_iff.mp h backslash hd

theorem startsWithHex_tokens_iff {t : Text} :
    StartsWithHex (tokens t) ↔
      ∃ d₁ d₂ d₃ d₄ rest, t = d₁ :: d₂ :: d₃ :: d₄ :: rest
        ∧ (Text.hexValue? [d₁, d₂, d₃, d₄]).isSome := by
  constructor
  · rintro ⟨d₁, d₂, d₃, d₄, rest, ht, hdigits⟩
    refine ⟨d₁, d₂, d₃, d₄, rest.flatMap Token.text, ?_, isSome_hexValue?_iff.mpr hdigits⟩
    rw [← flatMap_text_tokens t, ht]
    rfl
  · rintro ⟨d₁, d₂, d₃, d₄, rest, rfl, hvalue⟩
    have hne : ∀ d ∈ [d₁, d₂, d₃, d₄], d ≠ backslash :=
      fun _ => ne_backslash_of_hexValue? hvalue
    refine ⟨d₁, d₂, d₃, d₄, tokens rest, ?_, isSome_hexValue?_iff.mp hvalue⟩
    rw [tokens_bare (hne d₁ (by simp)), tokens_bare (hne d₂ (by simp)),
      tokens_bare (hne d₃ (by simp)), tokens_bare (hne d₄ (by simp))]
    rfl

theorem unescape_bare {c : CodePoint} (h : c ≠ backslash) (rest : Text) :
    unescape (c :: rest) = (unescape rest).map (c :: ·) := by
  rw [unescape.eq_def]
  exact if_neg h

theorem unescape_sign {e : CodePoint} (h : e ≠ 'u') (rest : Text) :
    unescape (backslash :: e :: rest) = (unescape rest).map (escaped e :: ·) := by
  rw [unescape.eq_def]
  simp [h]

/-- A `\u` takes the four digits behind it along, and fails where they do not stand there. -/
theorem unescape_unicode (rest : Text) :
    (∃ d₁ d₂ d₃ d₄ n later, rest = d₁ :: d₂ :: d₃ :: d₄ :: later
        ∧ Text.hexValue? [d₁, d₂, d₃, d₄] = some n
        ∧ unescape (backslash :: CodePoint.ofChar 'u' :: rest) =
            (unescape later).map (CodePoint.ofNat n :: ·))
      ∨ ¬ StartsWithHex (tokens rest)
        ∧ ∃ e, unescape (backslash :: CodePoint.ofChar 'u' :: rest) = .error e := by
  rw [startsWithHex_tokens_iff, unescape.eq_def]
  rcases rest with _ | ⟨d₁, _ | ⟨d₂, _ | ⟨d₃, _ | ⟨d₄, later⟩⟩⟩⟩
  · exact .inr ⟨by simp, _, rfl⟩
  · exact .inr ⟨by simp, _, rfl⟩
  · exact .inr ⟨by simp, _, rfl⟩
  · exact .inr ⟨by simp, _, rfl⟩
  · rcases hn : Text.hexValue? [d₁, d₂, d₃, d₄] with _ | n
    · refine .inr ⟨?_, ⟨[d₁, d₂, d₃, d₄]⟩, by simp [hn]⟩
      rintro ⟨e₁, e₂, e₃, e₄, later', he, hvalue⟩
      cases he
      rw [hn] at hvalue
      cases hvalue
    · exact .inl ⟨d₁, d₂, d₃, d₄, n, later, rfl, hn, by simp [hn]⟩

theorem exists_map_eq_ok_iff {ε α β : Type} {x : Except ε α} {f : α → β} :
    (∃ b, x.map f = .ok b) ↔ ∃ a, x = .ok a := by
  rcases x with e | a <;> simp [Except.map]

/-- A text can be decoded exactly where each `\u` has its digits. -/
theorem exists_unescape_iff (t : Text) :
    (∃ decoded, unescape t = .ok decoded) ↔ WellFormed (tokens t) := by
  induction t using tokenInduction with
  | nil => exact iff_of_true ⟨_, rfl⟩ (by simp [WellFormed, tokens])
  | dangling =>
    rw [tokens_dangling, wellFormed_bare_cons]
    exact iff_of_true ⟨_, rfl⟩ (by simp [WellFormed])
  | escape e rest ih =>
    rw [tokens_escape, wellFormed_cons]
    by_cases he : e = 'u'
    · subst he
      rcases unescape_unicode rest with
        ⟨d₁, d₂, d₃, d₄, n, later, rfl, hn, hdecode⟩ | ⟨hdigits, fault, hdecode⟩
      · have hvalue : (Text.hexValue? [d₁, d₂, d₃, d₄]).isSome := by rw [hn]; rfl
        have hstarts := startsWithHex_tokens_iff.mpr ⟨d₁, d₂, d₃, d₄, later, rfl, hvalue⟩
        have hne : ∀ d ∈ [d₁, d₂, d₃, d₄], d ≠ backslash :=
          fun _ => ne_backslash_of_hexValue? hvalue
        -- The digits are read over, as they are where no escape stands before them.
        rw [unescape_bare (hne d₁ (by simp)), exists_map_eq_ok_iff,
          unescape_bare (hne d₂ (by simp)), exists_map_eq_ok_iff,
          unescape_bare (hne d₃ (by simp)), exists_map_eq_ok_iff,
          unescape_bare (hne d₄ (by simp)), exists_map_eq_ok_iff] at ih
        rw [hdecode, exists_map_eq_ok_iff, ih]
        simp [hstarts]
      · rw [hdecode]
        simp [hdigits]
    · rw [unescape_sign he, exists_map_eq_ok_iff, ih]
      simp [he]
  | bare c rest h ih =>
    rw [unescape_bare h, exists_map_eq_ok_iff, ih, tokens_bare h, wellFormed_bare_cons]

theorem ne_nil_of_map_cons {ε : Type} {x : Except ε Text} {c : CodePoint} {decoded : Text}
    (h : x.map (c :: ·) = .ok decoded) : decoded ≠ [] := by
  rcases x with e | t <;> cases h
  exact List.cons_ne_nil c t

/-- Nothing but the empty text is decoded to nothing. -/
theorem eq_nil_iff_of_unescape {t decoded : Text} (h : unescape t = .ok decoded) :
    decoded = [] ↔ t = [] := by
  cases t using tokenInduction with
  | nil =>
    cases h
    rfl
  | dangling =>
    cases h
    exact iff_of_false (by simp) (by simp)
  | escape e rest =>
    refine iff_of_false ?_ (by simp)
    by_cases he : e = 'u'
    · subst he
      rcases unescape_unicode rest with ⟨_, _, _, _, _, _, _, _, hdecode⟩ | ⟨-, _, hdecode⟩
      · rw [hdecode] at h
        exact ne_nil_of_map_cons h
      · rw [hdecode] at h
        cases h
    · rw [unescape_sign he] at h
      exact ne_nil_of_map_cons h
  | bare c rest hc =>
    rw [unescape_bare hc] at h
    exact iff_of_false (ne_nil_of_map_cons h) (by simp)

end PropertyLayers.Properties
