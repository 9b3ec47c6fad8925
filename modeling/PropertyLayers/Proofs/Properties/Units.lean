import PropertyLayers.Proofs.Properties.Token
import PropertyLayers.Resource.Codec

/-!
# Values that are written in 16-bit units

UTF-16 writes a code point beyond the first 65536 as two units, a high and a low surrogate, and
`\u` has room for one unit. A value that is written as the `\u` escapes of its units is read unit
by unit: each escape becomes a code point of its own (`spells_of_unitEscapes`), also where two of
them make up a single one. So the value comes back as it was meant exactly if it has no code point
that takes two units (`units_read`).
-/

namespace PropertyLayers.Properties

/-- The UTF-16 units of a code point. -/
def codePointUnits (c : CodePoint) : List Nat :=
  if c.val < 0x10000 then [c.val]
  else [0xD800 + (c.val - 0x10000) / 0x400, 0xDC00 + (c.val - 0x10000) % 0x400]

def units (t : Text) : List Nat := t.flatMap codePointUnits

/-- Each unit is a backslash, a `u` and four hexadecimal digits of either case. -/
inductive UnitEscapes : List Nat → Text → Prop where
  | nil : UnitEscapes [] []
  | cons {n : Nat} {ns : List Nat} {d₁ d₂ d₃ d₄ : CodePoint} {rest : Text}
      (digits : Text.hexValue? [d₁, d₂, d₃, d₄] = some n) (later : UnitEscapes ns rest) :
      UnitEscapes (n :: ns) (backslash :: CodePoint.ofChar 'u' :: d₁ :: d₂ :: d₃ :: d₄ :: rest)

/-- Both readers take the line for the one property of this key and value. -/
structure Reads (line key value : Text) : Prop where
  text : readText line = .ok (.ofPairs [(key, value)])
  entry : readEntries [line] = .ok (.ofPairs [(key, value)])

/-! ## Units -/

theorem units_cons (c : CodePoint) (t : Text) : units (c :: t) = codePointUnits c ++ units t :=
  List.flatMap_cons

theorem not_isSurrogate_iff {c : CodePoint} :
    c.isSurrogate = false ↔ c.val < 0xD800 ∨ 0xDFFF < c.val := by
  simp [CodePoint.isSurrogate]
  omega

/-- The units are what the decoder of UTF-16 takes for the text. -/
theorem ofUnits_units : ∀ {t : Text}, (∀ c ∈ t, c.isSurrogate = false) →
    Codec.ofUnits (units t) = some t
  | [], _ => rfl
  | c :: t, h => by
    have ih := ofUnits_units fun d hd => h d (List.mem_cons_of_mem c hd)
    have hc := not_isSurrogate_iff.mp (h c List.mem_cons_self)
    have hbound := c.lt_bound
    rw [units_cons, codePointUnits]
    by_cases hwide : c.val < 0x10000
    · have hhigh : ¬ (0xD800 ≤ c.val ∧ c.val ≤ 0xDBFF) := by omega
      have hlow : ¬ (0xDC00 ≤ c.val ∧ c.val ≤ 0xDFFF) := by omega
      rw [if_pos hwide, List.singleton_append, Codec.ofUnits.eq_def]
      simp only [ih, Bool.and_eq_true, decide_eq_true_eq, if_neg hhigh, if_neg hlow,
        Option.map_some, CodePoint.ofNat_val]
    · obtain ⟨k, hk⟩ := Nat.exists_eq_add_of_le (Nat.le_of_not_lt hwide)
      have hquotient : k / 0x400 < 0x400 := by omega
      have hremainder : k % 0x400 < 0x400 := by omega
      have hsum : k = k / 0x400 * 0x400 + k % 0x400 := by omega
      have hhigh : 0xD800 ≤ 0xD800 + k / 0x400 ∧ 0xD800 + k / 0x400 ≤ 0xDBFF := by omega
      have hlow : 0xDC00 ≤ 0xDC00 + k % 0x400 ∧ 0xDC00 + k % 0x400 ≤ 0xDFFF := by omega
      rw [if_neg hwide, hk, Nat.add_sub_cancel_left, List.cons_append, List.singleton_append,
        Codec.ofUnits.eq_def]
      simp only [ih, Bool.and_eq_true, decide_eq_true_eq, if_pos hhigh, if_pos hlow,
        Nat.add_sub_cancel_left, Option.map_some, Nat.add_assoc, ← hsum, ← hk,
        CodePoint.ofNat_val]

theorem ofNat_val_of_lt {n : Nat} (h : n < 0x110000) : (CodePoint.ofNat n).val = n := by
  simp [CodePoint.ofNat, h]

theorem units_lt {t : Text} {n : Nat} (h : n ∈ units t) : n < 0x10000 := by
  obtain ⟨c, -, hn⟩ := List.mem_flatMap.mp h
  have hbound := c.lt_bound
  unfold codePointUnits at hn
  split at hn
  · rename_i hnarrow
    rw [List.mem_singleton.mp hn]
    exact hnarrow
  · simp only [List.mem_cons, List.not_mem_nil, or_false] at hn
    omega

/-- Unit by unit the text comes back exactly if it has no code point that takes two units. -/
theorem map_ofNat_units_iff (t : Text) :
    (units t).map CodePoint.ofNat = t ↔ ∀ c ∈ t, c.val < 0x10000 := by
  constructor
  · intro h c hc
    rw [← h] at hc
    obtain ⟨n, hn, rfl⟩ := List.mem_map.mp hc
    have hlt := units_lt hn
    rwa [ofNat_val_of_lt (by omega)]
  · intro h
    induction t with
    | nil => rfl
    | cons c t ih =>
      have hc := h c List.mem_cons_self
      have ih := ih fun d hd => h d (List.mem_cons_of_mem c hd)
      rw [units_cons, codePointUnits, if_pos hc, List.singleton_append, List.map_cons, ih,
        CodePoint.ofNat_val]

/-! ## Escapes of units -/

theorem isPlain_of_hexDigit? {d : CodePoint} (h : d.hexDigit?.isSome) : IsPlain d := by
  rcases hsign : escapeSign? d with _ | sign
  · exact isPlain_of_escapeSign? hsign
  · unfold escapeSign? at hsign
    split_ifs at hsign with htab hfeed hreturn hform hself
    · subst htab
      cases h
    · subst hfeed
      cases h
    · subst hreturn
      cases h
    · subst hform
      cases h
    · rcases hself with rfl | rfl | rfl | rfl | rfl | rfl <;> cases h

theorem hexDigit?_digitChar :
    ∀ d < 16, (CodePoint.ofChar (Nat.digitChar d)).hexDigit? = some d := by decide

theorem exists_hexValue?_eq {n : Nat} (h : n < 0x10000) :
    ∃ d₁ d₂ d₃ d₄, Text.hexValue? [d₁, d₂, d₃, d₄] = some n := by
  refine ⟨Nat.digitChar (n / 0x1000), Nat.digitChar (n / 0x100 % 16),
    Nat.digitChar (n / 0x10 % 16), Nat.digitChar (n % 16), ?_⟩
  simp only [Text.hexValue?, List.foldlM_cons, List.foldlM_nil,
    hexDigit?_digitChar (n / 0x1000) (by omega), hexDigit?_digitChar (n / 0x100 % 16) (by omega),
    hexDigit?_digitChar (n / 0x10 % 16) (by omega), hexDigit?_digitChar (n % 16) (by omega),
    Option.map_some, Option.bind_eq_bind, Option.bind_some, Option.pure_def, Option.some_inj]
  omega

theorem exists_unitEscapes : ∀ {ns : List Nat}, (∀ n ∈ ns, n < 0x10000) →
    ∃ written, UnitEscapes ns written
  | [], _ => ⟨[], .nil⟩
  | n :: ns, h => by
    obtain ⟨rest, hrest⟩ := exists_unitEscapes fun m hm => h m (List.mem_cons_of_mem n hm)
    obtain ⟨d₁, d₂, d₃, d₄, hdigits⟩ := exists_hexValue?_eq (h n List.mem_cons_self)
    exact ⟨_, .cons hdigits hrest⟩

/-- Escapes of units spell the code points of these numbers, one for each unit. -/
theorem spells_of_unitEscapes {ns : List Nat} {written : Text} (h : UnitEscapes ns written) :
    Spells written (ns.map CodePoint.ofNat) := by
  induction h with
  | nil => exact spells_escape []
  | @cons n ns d₁ d₂ d₃ d₄ rest digits later ih =>
    have hplain : ∀ d ∈ [d₁, d₂, d₃, d₄], IsPlain d := fun d hd =>
      isPlain_of_hexDigit? (isSome_hexValue?_iff.mp (by rw [digits]; rfl) d hd)
    have hfront : backslash :: CodePoint.ofChar 'u' :: d₁ :: d₂ :: d₃ :: d₄ :: rest =
        ([backslash, CodePoint.ofChar 'u', d₁, d₂, d₃] ++ [d₄]) ++ rest := rfl
    refine ⟨?_, rfl, ?_, ?_⟩
    · have hdigits : Unbroken [d₁, d₂, d₃, d₄] := fun d hd => (hplain d hd).not_break
      exact .cons (by decide) (.cons (by decide) (hdigits.append ih.unbroken))
    · rw [hfront, endsOpen_append (endsOpen_append_of_ne (hplain d₄ (by simp)).not_backslash)]
      exact ih.not_open
    · rw [unescape.eq_def]
      simp [digits, ih.decoded, Except.map]

/-! ## Reading -/

theorem escapeSign?_of_isPlain {c : CodePoint} (h : IsPlain c) : escapeSign? c = none := by
  obtain ⟨hbackslash, hspacing, hseparator, hcomment, hbreak⟩ := h
  simp only [isSpacing, isSeparator, Bool.or_eq_false_iff, decide_eq_false_iff_not] at *
  simp [escapeSign?, hbackslash, hspacing, hseparator, hcomment, hbreak]

theorem escape_of_plain {t : Text} (h : ∀ c ∈ t, IsPlain c) : escape t = t := by
  induction t with
  | nil => rfl
  | cons c t ih =>
    have ih := ih fun d hd => h d (List.mem_cons_of_mem c hd)
    have hc := escapeSign?_of_isPlain (h c List.mem_cons_self)
    rw [escape, List.flatMap_cons, ← escape, ih, escapeCodePoint, hc]
    rfl

theorem reads_of_spells {raw value key : Text} (h : Spells raw value) (hne : key ≠ []) :
    Reads (escape key ++ equalsSign :: raw) key value where
  text := by
    rw [readText, logicalLines_of_complete (complete_of_spells h key), List.foldlM_cons,
      addLine_of_spells h, PropertyMap.ofPairs_eq_foldl]
    rfl
  entry := by
    rw [readEntries, List.foldlM_cons, addEntry_of_spells h hne, PropertyMap.ofPairs_eq_foldl]
    rfl

/-- A value that can stand for itself. -/
structure IsLiteral (t : Text) : Prop where
  no_backslash : backslash ∉ t
  unbroken : Unbroken t
  not_indented : dropSpacing t = t

theorem unescape_of_not_mem : ∀ {t : Text}, backslash ∉ t → unescape t = .ok t
  | [], _ => rfl
  | c :: t, h => by
    simp only [List.mem_cons, not_or] at h
    rw [unescape_bare (Ne.symm h.1), unescape_of_not_mem h.2]
    rfl

theorem spells_of_isLiteral {t : Text} (h : IsLiteral t) : Spells t t where
  unbroken := h.unbroken
  not_indented := h.not_indented
  not_open := by
    rcases List.eq_nil_or_concat t with rfl | ⟨front, c, rfl⟩
    · rfl
    · have hc : c ≠ backslash := fun hc => h.no_backslash (by simp [hc])
      rw [List.concat_eq_append]
      exact endsOpen_append_of_ne hc
  decoded := unescape_of_not_mem h.no_backslash

/-- Behind a key of plain code points, the escapes of the units of a value are read as one code
point for each unit. That is the value, and what it is read as where it can stand for itself,
exactly if no code point of it takes two units. -/
theorem units_read {key value : Text} (hne : key ≠ []) (hkey : ∀ c ∈ key, IsPlain c)
    (hvalue : ∀ c ∈ value, c.isSurrogate = false) :
    Codec.ofUnits (units value) = some value
      ∧ (∃ written, UnitEscapes (units value) written)
      ∧ (∀ written, UnitEscapes (units value) written →
          Reads (key ++ equalsSign :: written) key ((units value).map CodePoint.ofNat))
      ∧ ((units value).map CodePoint.ofNat = value ↔ ∀ c ∈ value, c.val < 0x10000)
      ∧ (IsLiteral value → Reads (key ++ equalsSign :: value) key value) := by
  have hescape := escape_of_plain hkey
  refine ⟨ofUnits_units hvalue, exists_unitEscapes fun _ => units_lt, fun written hwritten => ?_,
    map_ofNat_units_iff value, fun hliteral => ?_⟩
  · have h := reads_of_spells (spells_of_unitEscapes hwritten) hne
    rwa [hescape] at h
  · have h := reads_of_spells (spells_of_isLiteral hliteral) hne
    rwa [hescape] at h

/-- The euro sign takes one unit. -/
theorem units_read_euroSign :
    Codec.ofUnits [0x20AC] = some "€"
      ∧ Reads "k=\\u20aC" "k" "€" ∧ Reads "k=€" "k" "€" := by
  have hkey : ∀ c ∈ Text.ofString "k", IsPlain c := by
    intro c hc
    rw [List.mem_singleton.mp hc]
    exact isPlain_of_escapeSign? rfl
  have hwritten : UnitEscapes (units "€") "\\u20aC" := .cons rfl .nil
  have hliteral : IsLiteral "€" := ⟨by decide, by unfold Unbroken; decide, rfl⟩
  obtain ⟨hunits, -, hread, hsame, hplain⟩ :=
    units_read (by decide) hkey (by decide : ∀ c ∈ Text.ofString "€", c.isSurrogate = false)
  have hvalue := hread _ hwritten
  rw [hsame.mpr (by decide)] at hvalue
  exact ⟨hunits, hvalue, hplain hliteral⟩

/-- The code point U+1F600 takes two units, the escapes of which are read as two surrogates. -/
theorem reads_twoUnits_apart :
    Codec.ofUnits [0xD83D, 0xDE00] = some [CodePoint.ofNat 0x1F600]
      ∧ UnitEscapes [0xD83D, 0xDE00] "\\uD83D\\uDE00"
      ∧ Reads (Text.ofString "k=" ++ [CodePoint.ofNat 0x1F600]) "k" [CodePoint.ofNat 0x1F600]
      ∧ Reads "k=\\uD83D\\uDE00" "k" [CodePoint.ofNat 0xD83D, CodePoint.ofNat 0xDE00]
      ∧ readText "k=\\uD83D\\uDE00" ≠ .ok (.ofPairs [("k", [CodePoint.ofNat 0x1F600])])
      ∧ readEntries ["k=\\uD83D\\uDE00"] ≠ .ok (.ofPairs [("k", [CodePoint.ofNat 0x1F600])]) := by
  have hkey : Text.ofString "k" ≠ [] := by decide
  have hliteral : IsLiteral [CodePoint.ofNat 0x1F600] :=
    ⟨by decide, by unfold Unbroken; decide, rfl⟩
  have hwritten : UnitEscapes [0xD83D, 0xDE00] "\\uD83D\\uDE00" := .cons rfl (.cons rfl .nil)
  have hread : Reads "k=\\uD83D\\uDE00" "k" [CodePoint.ofNat 0xD83D, CodePoint.ofNat 0xDE00] :=
    reads_of_spells (spells_of_unitEscapes hwritten) hkey
  have hne : PropertyMap.ofPairs [("k", [CodePoint.ofNat 0xD83D, CodePoint.ofNat 0xDE00])] ≠
      PropertyMap.ofPairs [("k", [CodePoint.ofNat 0x1F600])] := by decide
  refine ⟨by decide, hwritten, reads_of_spells (spells_of_isLiteral hliteral) hkey, hread, ?_, ?_⟩
  · intro h
    exact hne (Except.ok.inj (hread.text.symm.trans h))
  · intro h
    exact hne (Except.ok.inj (hread.entry.symm.trans h))

end PropertyLayers.Properties
