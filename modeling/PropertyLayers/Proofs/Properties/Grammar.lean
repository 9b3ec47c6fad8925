import PropertyLayers.Proofs.Properties.Accepted
import PropertyLayers.Proofs.Properties.Decoding

/-!
# The grammar of a logical line

A line is cut into tokens in one way (`isCut_iff`), and its tokens fall in one way into a key, white
space, at most one separator, white space behind it and a value (`LineParts.MakeUp.eq`). The line is
read as these parts are decoded, and it is read wherever each `\u` of its key and of its value has
its digits in the same part (`readLine_grammar`).
-/

namespace PropertyLayers.Properties

/-! ## Tokens -/

/-- Nothing of the line is lost, and a backslash stands bare only where nothing is left to be
escaped. -/
structure IsCut (line : Text) (ts : List Token) : Prop where
  whole : ts.flatMap Token.text = line
  dangling : ∀ before after, ts = before ++ .bare backslash :: after → after = []

theorem IsCut.eq {ts : List Token} : ∀ {line : Text}, IsCut line ts → ts = tokens line := by
  induction ts with
  | nil =>
    rintro line ⟨rfl, -⟩
    rfl
  | cons t ts ih =>
    rintro line ⟨rfl, hdangling⟩
    have hrest : ts = tokens (ts.flatMap Token.text) :=
      ih ⟨rfl, fun before after h => hdangling (t :: before) after (by rw [h]; rfl)⟩
    rcases t with c | e
    · by_cases hc : c = backslash
      · cases hdangling [] ts (by rw [hc]; rfl)
        rw [hc]
        rfl
      · show _ = tokens (c :: ts.flatMap Token.text)
        rw [tokens_bare hc, ← hrest]
    · show _ = tokens (backslash :: e :: ts.flatMap Token.text)
      rw [tokens_escape, ← hrest]

theorem dangling_tokens (line : Text) :
    ∀ before after, tokens line = before ++ .bare backslash :: after → after = [] := by
  induction line using tokenInduction with
  | nil =>
    intro before after h
    cases before <;> cases h
  | dangling =>
    rintro (_ | ⟨t, before⟩) after h
    · cases h
      rfl
    · cases before <;> cases h
  | escape e rest ih =>
    rintro (_ | ⟨t, before⟩) after h <;> rw [tokens_escape] at h
    · cases h
    · exact ih before after (List.cons.inj h).2
  | bare c rest hc ih =>
    rintro (_ | ⟨t, before⟩) after h <;> rw [tokens_bare hc] at h
    · cases h
      exact absurd rfl hc
    · exact ih before after (List.cons.inj h).2

theorem isCut_iff {line : Text} {ts : List Token} : IsCut line ts ↔ ts = tokens line :=
  ⟨IsCut.eq, fun h => h ▸ ⟨flatMap_text_tokens line, dangling_tokens line⟩⟩

/-! ## Parts -/

/-- The first tokens are of this kind, and what follows them does not go on with one. -/
structure LongestRun (kind : Token → Bool) (run rest : List Token) : Prop where
  all : ∀ t ∈ run, kind t
  stops : ∀ t, rest.head? = some t → kind t = false

namespace LongestRun

variable {kind : Token → Bool} {run rest : List Token}

theorem takeWhile_append (h : LongestRun kind run rest) : (run ++ rest).takeWhile kind = run := by
  rw [List.takeWhile_append_of_pos h.all]
  rcases rest with _ | ⟨t, rest⟩
  · simp
  · rw [List.takeWhile_cons_of_neg (by simp [h.stops t rfl]), List.append_nil]

theorem eq {run' rest' : List Token} (h : LongestRun kind run rest)
    (h' : LongestRun kind run' rest') (heq : run ++ rest = run' ++ rest') :
    run = run' ∧ rest = rest' := by
  have hrun : run = run' := by rw [← h.takeWhile_append, heq, h'.takeWhile_append]
  subst hrun
  exact ⟨rfl, List.append_cancel_left heq⟩

theorem ofWhile (kind : Token → Bool) (ts : List Token) :
    LongestRun kind (ts.takeWhile kind) (ts.dropWhile kind) := by
  refine ⟨List.all_eq_true.mp List.all_takeWhile, fun t ht => ?_⟩
  have := List.head?_dropWhile_not kind ts
  rw [ht] at this
  simpa using this

end LongestRun

/-- What a line falls into; `padding` is the white space behind the separator. -/
structure LineParts where
  key : List Token
  spacing : List Token
  separator? : Option CodePoint
  padding : List Token
  value : List Token

namespace LineParts

def separator (parts : LineParts) : List Token := parts.separator?.toList.map .bare

/-- The tokens fall into these parts, of which none loses anything to the next one. -/
structure MakeUp (parts : LineParts) (ts : List Token) : Prop where
  whole : ts = parts.key ++ (parts.spacing ++ (parts.separator ++ (parts.padding ++ parts.value)))
  key : LongestRun Token.isKeyPart parts.key
    (parts.spacing ++ (parts.separator ++ (parts.padding ++ parts.value)))
  spacing : LongestRun (Token.isBare isSpacing) parts.spacing
    (parts.separator ++ (parts.padding ++ parts.value))
  separator : ∀ c, parts.separator? = some c → isSeparator c
  padding : parts.separator? ≠ none →
    LongestRun (Token.isBare isSpacing) parts.padding parts.value
  unseparated : parts.separator? = none → parts.padding = []
    ∧ ∀ t, parts.value.head? = some t → t.isBare isSeparator = false

theorem MakeUp.isSome_separator? {parts : LineParts} {ts : List Token} (h : parts.MakeUp ts) :
    parts.separator?.isSome =
      (parts.separator ++ (parts.padding ++ parts.value)).head?.any (Token.isBare isSeparator) := by
  obtain ⟨key, spacing, _ | c, padding, value⟩ := parts
  · obtain ⟨hpadding, hvalue⟩ := h.unseparated rfl
    dsimp only at hpadding hvalue
    subst hpadding
    rcases value with _ | ⟨t, value⟩
    · rfl
    · exact (hvalue t rfl).symm
  · exact (h.separator c rfl).symm

theorem MakeUp.eq {a b : LineParts} {ts : List Token} (ha : a.MakeUp ts) (hb : b.MakeUp ts) :
    a = b := by
  obtain ⟨hkey, hafter⟩ := ha.key.eq hb.key (ha.whole.symm.trans hb.whole)
  obtain ⟨hspacing, hbehind⟩ := ha.spacing.eq hb.spacing hafter
  have hseparated : a.separator?.isSome = b.separator?.isSome := by
    rw [ha.isSome_separator?, hb.isSome_separator?, hbehind]
  rcases a with ⟨key, spacing, _ | c, padding, value⟩ <;>
    rcases b with ⟨key', spacing', _ | c', padding', value'⟩ <;> try cases hseparated
  · cases (ha.unseparated rfl).1
    cases (hb.unseparated rfl).1
    cases hkey
    cases hspacing
    cases hbehind
    rfl
  · obtain ⟨hc, hrest⟩ := List.cons.inj hbehind
    obtain ⟨hpadding, hvalue⟩ := (ha.padding nofun).eq (hb.padding nofun) hrest
    cases hkey
    cases hspacing
    cases hc
    cases hpadding
    cases hvalue
    rfl

/-- The parts where what stands behind the key and its white space is cut at a separator. -/
def ofBehind (key spacing : List Token) : List Token → LineParts
  | .bare c :: rest =>
    if isSeparator c then ⟨key, spacing, some c, rest.takeWhile (Token.isBare isSpacing),
      rest.dropWhile (Token.isBare isSpacing)⟩
    else ⟨key, spacing, none, [], .bare c :: rest⟩
  | behind => ⟨key, spacing, none, [], behind⟩

def ofTokens (ts : List Token) : LineParts :=
  let after := ts.dropWhile Token.isKeyPart
  ofBehind (ts.takeWhile Token.isKeyPart) (after.takeWhile (Token.isBare isSpacing))
    (after.dropWhile (Token.isBare isSpacing))

theorem makeUp_ofBehind {key spacing behind : List Token}
    (hkey : LongestRun Token.isKeyPart key (spacing ++ behind))
    (hspacing : LongestRun (Token.isBare isSpacing) spacing behind) :
    (ofBehind key spacing behind).MakeUp (key ++ (spacing ++ behind)) := by
  have hunseparated : (∀ t, behind.head? = some t → t.isBare isSeparator = false) →
      LineParts.MakeUp ⟨key, spacing, none, [], behind⟩ (key ++ (spacing ++ behind)) :=
    fun hbehind => ⟨rfl, hkey, hspacing, nofun, fun h => absurd rfl h, fun _ => ⟨rfl, hbehind⟩⟩
  rcases behind with _ | ⟨c | e, rest⟩
  · exact hunseparated nofun
  · rw [ofBehind]
    split_ifs with hc
    · have hrest := List.takeWhile_append_dropWhile (p := Token.isBare isSpacing) (l := rest)
      have hwhole : Token.bare c :: rest = [Token.bare c] ++
          (rest.takeWhile (Token.isBare isSpacing) ++ rest.dropWhile (Token.isBare isSpacing)) := by
        rw [hrest]
        rfl
      rw [hwhole] at hkey hspacing ⊢
      refine ⟨rfl, hkey, hspacing, fun d hd => ?_, fun _ => .ofWhile _ rest, nofun⟩
      cases hd
      exact hc
    · refine hunseparated fun t ht => ?_
      cases ht
      exact Bool.eq_false_iff.mpr hc
  · refine hunseparated fun t ht => ?_
    cases ht
    rfl

theorem makeUp_ofTokens (ts : List Token) : (ofTokens ts).MakeUp ts := by
  have hspacing := List.takeWhile_append_dropWhile (p := Token.isBare isSpacing)
    (l := ts.dropWhile Token.isKeyPart)
  have hkey := LongestRun.ofWhile Token.isKeyPart ts
  have hmake := makeUp_ofBehind (hspacing.symm ▸ hkey) (LongestRun.ofWhile _ _)
  rwa [hspacing, List.takeWhile_append_dropWhile] at hmake

theorem MakeUp.key_eq {parts : LineParts} {ts : List Token} (h : parts.MakeUp ts) :
    parts.key = ts.takeWhile Token.isKeyPart := by
  rw [h.whole, h.key.takeWhile_append]

theorem value_ofTokens (line : Text) : (ofTokens (tokens line)).value = valueTokens line := by
  unfold ofTokens valueTokens
  dsimp only
  rcases ((tokens line).dropWhile Token.isKeyPart).dropWhile (Token.isBare isSpacing)
    with _ | ⟨c | e, rest⟩
  · rfl
  · rw [ofBehind]
    by_cases hc : isSeparator c
    · rw [if_pos hc]
      exact (if_pos hc).symm
    · rw [if_neg hc]
      exact (if_neg hc).symm
  · rfl

theorem MakeUp.behind_eq {parts : LineParts} {ts : List Token} (h : parts.MakeUp ts) :
    parts.separator ++ (parts.padding ++ parts.value) =
      (ts.dropWhile Token.isKeyPart).dropWhile (Token.isBare isSpacing) := by
  obtain ⟨-, hafter⟩ := h.key.eq (.ofWhile _ ts)
    (h.whole.symm.trans List.takeWhile_append_dropWhile.symm)
  exact (h.spacing.eq (.ofWhile _ _) (hafter.trans List.takeWhile_append_dropWhile.symm)).2

end LineParts

/-! ## Lines -/

theorem separated_takeValue (after : Text) :
    (takeValue after).2 = (tokens (dropSpacing after)).head?.any (Token.isBare isSeparator) := by
  unfold takeValue
  generalize dropSpacing after = behind
  cases behind using tokenInduction with
  | nil => rfl
  | dangling => rfl
  | escape e rest =>
    rw [tokens_escape]
    rfl
  | bare c rest hc =>
    rw [tokens_bare hc]
    dsimp only
    by_cases hs : isSeparator c
    · rw [if_pos hs]
      exact hs.symm
    · rw [if_neg hs]
      exact (Bool.eq_false_iff.mpr hs).symm

theorem readLine_eq_error_iff {line : Text} {e : BadEscape} :
    readLine line = .error e ↔ FirstBad (keyTokens line) e
      ∨ WellFormed (keyTokens line) ∧ FirstBad (valueTokens line) e := by
  rw [← (tokens_takeKey line).1, ← tokens_takeValue, ← unescape_eq_error_iff,
    ← unescape_eq_error_iff, ← exists_unescape_iff, readLine_eq]
  rcases unescape (takeKey line).1 with e' | key
  · simp [Except.bind]
  · simp [Except.bind, map_eq_error_iff]

/-- A line is cut into tokens in one way, and these fall into a key, white space, a separator, white
space and a value in one way. The line says what key and value are decoded to, and whether there is
a separator. It says nothing exactly where a `\u` lacks its digits in one of the two, and fails at
the first such one of the key or, if there is none, of the value. -/
theorem readLine_grammar (line : Text) :
    ∃ (ts : List Token) (parts : LineParts), (∀ others, IsCut line others ↔ others = ts)
      ∧ (∀ others : LineParts, others.MakeUp ts ↔ others = parts)
      ∧ (∀ read, readLine line = .ok read ↔ Decodes parts.key read.key
          ∧ Decodes parts.value read.value ∧ read.separated = parts.separator?.isSome)
      ∧ ((∃ e, readLine line = .error e) ↔ ¬ (WellFormed parts.key ∧ WellFormed parts.value))
      ∧ ∀ e, readLine line = .error e ↔
          FirstBad parts.key e ∨ WellFormed parts.key ∧ FirstBad parts.value e := by
  have hmake := LineParts.makeUp_ofTokens (tokens line)
  have hkey : (LineParts.ofTokens (tokens line)).key = keyTokens line := hmake.key_eq
  have hseparated : (takeValue (takeKey line).2).2 =
      (LineParts.ofTokens (tokens line)).separator?.isSome := by
    rw [separated_takeValue, tokens_dropSpacing, (tokens_takeKey line).2, hmake.isSome_separator?,
      hmake.behind_eq]
  refine ⟨tokens line, .ofTokens (tokens line), fun _ => isCut_iff, fun others => ?_,
    fun read => ?_, ?_, fun e => ?_⟩
  · exact ⟨fun h => h.eq hmake, fun h => h ▸ hmake⟩
  · rw [readLine_eq_ok_iff, unescape_eq_ok_iff, unescape_eq_ok_iff, (tokens_takeKey line).1,
      tokens_takeValue, hkey, LineParts.value_ofTokens, hseparated, eq_comm (a := read.separated)]
  · rw [hkey, LineParts.value_ofTokens, ← exists_readLine_iff]
    rcases readLine line with e | read <;> simp
  · rw [hkey, LineParts.value_ofTokens, readLine_eq_error_iff]

end PropertyLayers.Properties
