import PropertyLayers.Proofs.Properties.Accepted
import PropertyLayers.Proofs.Properties.Decoding
import PropertyLayers.Proofs.Properties.Opening

/-!
# Backslashes come in pairs

A logical line ends in an even number of backslashes, also where the text ends before a line that
goes on does (`paired_of_mem_logicalLines`). No backslash stands bare in it then (`paired_iff`), and
as the line is cut between tokens none does in its key or in its value. So what the decoder makes of
a backslash at the end is never asked for (`unescapeWith_eq`), and the loops over a line, which step
over a backslash and what follows it at once, stay within it (`Visits.within`).
-/

namespace PropertyLayers.Properties

/-- The backslashes at the end, if any, escape one another. -/
def Paired (t : Text) : Prop := trailingBackslashes t % 2 = 0

/-! ## No bare backslash -/

theorem paired_iff_endsOpen {t : Text} : Paired t ↔ endsOpen t = false := by
  unfold Paired endsOpen
  rw [decide_eq_false_iff_not]
  omega

theorem paired_nil : Paired [] := rfl

theorem not_paired_backslash : ¬ Paired [backslash] := by
  rw [paired_iff_endsOpen]
  decide

theorem paired_append_iff {front back : Text} (h : endsOpen front = false) :
    Paired (front ++ back) ↔ Paired back := by
  rw [paired_iff_endsOpen, paired_iff_endsOpen, endsOpen_append h]

theorem paired_escape_iff {e : CodePoint} {rest : Text} :
    Paired (backslash :: e :: rest) ↔ Paired rest :=
  paired_append_iff (endsOpen_pair e)

theorem paired_bare_iff {c : CodePoint} (h : c ≠ backslash) {rest : Text} :
    Paired (c :: rest) ↔ Paired rest := by
  have hc : endsOpen ([] ++ [c]) = false := endsOpen_append_of_ne h
  exact paired_append_iff hc

/-- A backslash stands bare only at the end, and there only where it is not escaped itself. -/
theorem paired_iff (t : Text) : Paired t ↔ Token.bare backslash ∉ tokens t := by
  induction t using tokenInduction with
  | nil => exact iff_of_true paired_nil List.not_mem_nil
  | dangling => exact iff_of_false not_paired_backslash (not_not.mpr List.mem_cons_self)
  | escape e rest ih =>
    rw [paired_escape_iff, tokens_escape, ih]
    simp
  | bare c rest h ih =>
    rw [paired_bare_iff h, tokens_bare h, ih]
    simp [h.symm]

theorem paired_takeKey {line : Text} (h : Paired line) : Paired (takeKey line).1 := by
  rw [paired_iff] at h ⊢
  rw [(tokens_takeKey line).1]
  exact fun hm => h ((List.takeWhile_sublist _).subset hm)

theorem valueTokens_subset (line : Text) : valueTokens line ⊆ tokens line := by
  have hafter : (tokens line).dropWhile Token.isKeyPart ⊆ tokens line :=
    (List.dropWhile_sublist _).subset
  have hbehind := List.Subset.trans
    (List.dropWhile_sublist (Token.isBare isSpacing)).subset hafter
  unfold valueTokens
  split
  · exact List.nil_subset _
  · rename_i t rest heq
    rw [heq] at hbehind
    split
    · exact fun _ hm => hbehind (List.mem_cons_of_mem t ((List.dropWhile_sublist _).subset hm))
    · exact hbehind

theorem paired_takeValue {line : Text} (h : Paired line) :
    Paired (takeValue (takeKey line).2).1 := by
  rw [paired_iff] at h ⊢
  rw [tokens_takeValue]
  exact fun hm => h (valueTokens_subset line hm)

/-! ## Logical lines -/

namespace Joining

variable {state : Joining}

/-- All logical lines so far end in pairs of backslashes, and so does what is kept of one that goes
on. -/
structure AllPaired (state : Joining) : Prop where
  complete : ∀ line ∈ state.complete, Paired line
  pending : state.Even

theorem AllPaired.add (h : state.AllPaired) (physical : Text) : (state.add physical).AllPaired := by
  refine ⟨?_, h.pending.add physical⟩
  unfold Joining.add
  dsimp only
  split_ifs with hskips hopen
  · exact h.complete
  · exact h.complete
  · rw [List.forall_mem_append, List.forall_mem_singleton]
    have hown : Paired (dropSpacing physical) := paired_iff_endsOpen.mpr (by simpa using hopen)
    exact ⟨h.complete, (paired_append_iff h.pending).mpr hown⟩

theorem AllPaired.addAll :
    ∀ (physical : List Text) {state : Joining}, state.AllPaired →
      (physical.foldl Joining.add state).AllPaired
  | [], _, h => h
  | own :: rest, _, h => addAll rest (h.add own)

theorem AllPaired.paired (h : state.AllPaired) {line : Text} (hline : line ∈ state.lines) :
    Paired line := by
  rcases List.mem_append.mp hline with hcomplete | hpending
  · exact h.complete line hcomplete
  · have hpending : state.pending? = some line := by simpa using hpending
    have heven := h.pending
    rw [Even, hpending] at heven
    exact paired_iff_endsOpen.mpr heven

end Joining

theorem paired_of_mem_logicalLines {text line : Text} (h : line ∈ logicalLines text) :
    Paired line := by
  rw [← Joining.lines_physicalLines] at h
  have hstart : Joining.start.AllPaired := ⟨by simp [Joining.start], Joining.even_start⟩
  exact (hstart.addAll (physicalLines text)).paired h

/-! ## The loops over a line -/

/-- The places that a loop over a line comes to, where it goes on until a code point stops it. It
steps over a backslash and one place more, whatever stands there. -/
inductive Visits (stops : CodePoint → Bool) (t : Text) : Nat → Prop
  | start : Visits stops t 0
  | single {index : Nat} {c : CodePoint} (before : Visits stops t index)
      (here : t[index]? = some c) (plain : c ≠ backslash) (goesOn : stops c = false) :
      Visits stops t (index + 1)
  | pair {index : Nat} (before : Visits stops t index) (here : t[index]? = some backslash) :
      Visits stops t (index + 2)

/-- The loop ends here, at a code point that stops it or behind the line. -/
structure HaltsAt (stops : CodePoint → Bool) (t : Text) (index : Nat) : Prop where
  visits : Visits stops t index
  stops : ∀ c, t[index]? = some c → c ≠ backslash ∧ stops c

def endsKey (c : CodePoint) : Bool := isSeparator c || isSpacing c

section Loops

variable {stops : CodePoint → Bool} {t : Text} {index : Nat}

theorem drop_eq_cons {c : CodePoint} (h : t[index]? = some c) :
    t.drop index = c :: t.drop (index + 1) := by
  obtain ⟨hindex, rfl⟩ := List.getElem?_eq_some_iff.mp h
  exact List.drop_eq_getElem_cons hindex

theorem drop_eq_nil (h : t[index]? = none) : t.drop index = [] ∧ t.drop (index + 1) = [] := by
  have hend : t.length ≤ index := List.getElem?_eq_none_iff.mp h
  exact ⟨List.drop_eq_nil_of_le hend, List.drop_eq_nil_of_le (Nat.le_succ_of_le hend)⟩

theorem Visits.within (h : Visits stops t index) (hpaired : Paired t) :
    index ≤ t.length ∧ Paired (t.drop index) := by
  induction h with
  | start => exact ⟨Nat.zero_le _, hpaired⟩
  | @single index c _ here plain _ ih =>
    obtain ⟨hindex, -⟩ := List.getElem?_eq_some_iff.mp here
    rw [drop_eq_cons here, paired_bare_iff plain] at ih
    exact ⟨hindex, ih.2⟩
  | @pair index _ here ih =>
    rw [drop_eq_cons here] at ih
    rcases hnext : t[index + 1]? with _ | e
    · rw [(drop_eq_nil hnext).1] at ih
      exact absurd ih.2 not_paired_backslash
    · obtain ⟨hindex, -⟩ := List.getElem?_eq_some_iff.mp hnext
      rw [drop_eq_cons hnext, paired_escape_iff] at ih
      exact ⟨hindex, ih.2⟩

theorem exists_haltsAt_append (stops : CodePoint → Bool) (rest : Text) :
    ∀ before, Visits stops (before ++ rest) before.length →
      ∃ index, HaltsAt stops (before ++ rest) index := by
  induction rest using tokenInduction with
  | nil => exact fun before h => ⟨_, h, by simp⟩
  | dangling => exact fun before h => ⟨_, h.pair (by simp), by simp⟩
  | escape e rest ih =>
    intro before h
    have hpair := h.pair (by simp)
    have heq : before ++ backslash :: e :: rest = (before ++ [backslash, e]) ++ rest := by simp
    rw [heq] at hpair ⊢
    exact ih _ (by simpa using hpair)
  | bare c rest hc ih =>
    intro before h
    by_cases hstops : stops c
    · exact ⟨_, h, by simp [hc, hstops]⟩
    · have hsingle := h.single (by simp) hc (by simpa using hstops)
      have heq : before ++ c :: rest = (before ++ [c]) ++ rest := by simp
      rw [heq] at hsingle ⊢
      exact ih _ (by simpa using hsingle)

theorem exists_haltsAt (stops : CodePoint → Bool) (t : Text) :
    ∃ index, HaltsAt stops t index :=
  exists_haltsAt_append stops t [] .start

/-! What a loop has passed over belongs to what it looks for, and what it has not is looked at as a
line of its own. -/

theorem takeKey_escape (e : CodePoint) (rest : Text) :
    takeKey (backslash :: e :: rest) =
      (backslash :: e :: (takeKey rest).1, (takeKey rest).2) := by
  rw [takeKey.eq_def]
  exact if_pos rfl

theorem takeKey_bare {c : CodePoint} (plain : c ≠ backslash) (rest : Text) :
    takeKey (c :: rest) =
      if endsKey c then ([], c :: rest) else (c :: (takeKey rest).1, (takeKey rest).2) := by
  rw [takeKey.eq_def]
  exact if_neg plain

theorem Visits.takeKey_eq (h : Visits endsKey t index) :
    takeKey t =
      (t.take index ++ (takeKey (t.drop index)).1, (takeKey (t.drop index)).2) := by
  induction h with
  | start => rfl
  | @single index c _ here plain goesOn ih =>
    rw [ih, drop_eq_cons here, takeKey_bare plain, goesOn, List.take_add_one, here]
    simp
  | @pair index _ here ih =>
    rw [ih, drop_eq_cons here, List.take_add_one, List.take_add_one, here]
    rcases hnext : t[index + 1]? with _ | e
    · obtain ⟨hrest, hbehind⟩ := drop_eq_nil hnext
      rw [hrest, hbehind]
      simp [takeKey]
    · rw [drop_eq_cons hnext, takeKey_escape]
      simp

theorem HaltsAt.takeKey_eq (h : HaltsAt endsKey t index) :
    takeKey t = (t.take index, t.drop index) := by
  rw [h.visits.takeKey_eq]
  rcases hhere : t[index]? with _ | c
  · rw [(drop_eq_nil hhere).1]
    simp [takeKey]
  · obtain ⟨plain, hstops⟩ := h.stops c hhere
    rw [drop_eq_cons hhere, takeKey_bare plain, if_pos hstops]
    simp

theorem Visits.hasBareSeparator_eq (h : Visits isSeparator t index) :
    hasBareSeparator t = hasBareSeparator (t.drop index) := by
  simp only [hasBareSeparator_eq_any]
  induction h with
  | start => rfl
  | single _ here plain goesOn ih =>
    rw [ih, drop_eq_cons here, tokens_bare plain, List.any_cons]
    simp [Token.isBare, goesOn]
  | @pair index _ here ih =>
    rw [ih, drop_eq_cons here]
    rcases hnext : t[index + 1]? with _ | e
    · obtain ⟨hrest, hbehind⟩ := drop_eq_nil hnext
      rw [hrest, hbehind]
      rfl
    · rw [drop_eq_cons hnext, tokens_escape]
      rfl

theorem HaltsAt.hasBareSeparator_eq (h : HaltsAt isSeparator t index) :
    hasBareSeparator t = decide (index < t.length) := by
  rw [h.visits.hasBareSeparator_eq]
  rcases hhere : t[index]? with _ | c
  · have hend : t.length ≤ index := List.getElem?_eq_none_iff.mp hhere
    rw [(drop_eq_nil hhere).1, decide_eq_false (Nat.not_lt.mpr hend)]
    rfl
  · obtain ⟨plain, hstops⟩ := h.stops c hhere
    obtain ⟨hindex, -⟩ := List.getElem?_eq_some_iff.mp hhere
    rw [drop_eq_cons hhere, hasBareSeparator_eq_any, tokens_bare plain, List.any_cons,
      decide_eq_true hindex]
    simp [Token.isBare, hstops]

end Loops

/-! ## The decoder -/

/-- Decodes the escapes, where `atEnd` is the answer to a backslash at the end. -/
def unescapeWith (atEnd : Except BadEscape Text) : Text → Except BadEscape Text
  | [] => .ok []
  | c :: rest =>
    if c = '\\' then
      match rest with
      | [] => atEnd
      | e :: rest =>
        if e = 'u' then
          match rest with
          | d₁ :: d₂ :: d₃ :: d₄ :: rest =>
            match Text.hexValue? [d₁, d₂, d₃, d₄] with
            | some n => (unescapeWith atEnd rest).map (CodePoint.ofNat n :: ·)
            | none => .error ⟨[d₁, d₂, d₃, d₄]⟩
          | digits => .error ⟨digits⟩
        else (unescapeWith atEnd rest).map (escaped e :: ·)
    else (unescapeWith atEnd rest).map (c :: ·)

theorem paired_digits_iff {d₁ d₂ d₃ d₄ : CodePoint}
    (h : (Text.hexValue? [d₁, d₂, d₃, d₄]).isSome) {rest : Text} :
    Paired (d₁ :: d₂ :: d₃ :: d₄ :: rest) ↔ Paired rest := by
  have hne : ∀ d ∈ [d₁, d₂, d₃, d₄], d ≠ backslash := fun _ => ne_backslash_of_hexValue? h
  rw [paired_bare_iff (hne d₁ (by simp)), paired_bare_iff (hne d₂ (by simp)),
    paired_bare_iff (hne d₃ (by simp)), paired_bare_iff (hne d₄ (by simp))]

/-- The answer to a backslash at the end is asked for only where it stands there bare. -/
theorem unescapeWith_eq {t : Text} {atEnd : Except BadEscape Text}
    (h : Paired t ∨ atEnd = .ok [backslash]) : unescapeWith atEnd t = unescape t := by
  -- What is left once an escape or four digits are read is paired as the text is.
  fun_induction unescape t with
  | case1 => rfl
  | case2 =>
    rcases h with h | rfl
    · exact absurd h not_paired_backslash
    · rfl
  | case3 d₁ d₂ d₃ d₄ rest n hn ih =>
    rw [paired_escape_iff, paired_digits_iff (by rw [hn]; rfl)] at h
    rw [unescapeWith, ← ih h]
    simp [hn]
  | case4 d₁ d₂ d₃ d₄ rest hn => simp [unescapeWith, hn]
  | case5 digits hshort =>
    rcases digits with _ | ⟨d₁, _ | ⟨d₂, _ | ⟨d₃, _ | ⟨d₄, rest⟩⟩⟩⟩
    · rfl
    · rfl
    · rfl
    · rfl
    · exact (hshort d₁ d₂ d₃ d₄ rest rfl).elim
  | case6 e rest he ih =>
    rw [unescapeWith.eq_def, ← ih (h.imp_left paired_escape_iff.mp)]
    simp [he]
  | case7 c rest hc ih =>
    rw [unescapeWith.eq_def, ← ih (h.imp_left (paired_bare_iff hc).mp)]
    exact if_neg hc

/-! ## The readers -/

section Readers

variable (decode : Text → Except BadEscape Text)

/-- Reads a logical line with this decoder. -/
def readLineBy (line : Text) : Except BadEscape Entry := do
  let (rawKey, after) := takeKey line
  let (rawValue, separated) := takeValue after
  let key ← decode rawKey
  let value ← decode rawValue
  return { key, value, separated }

def readTextBy (text : Text) : Except BadEscape PropertyMap :=
  (logicalLines text).foldlM
    (fun m line => (readLineBy decode line).map fun entry => m.insert entry.key entry.value) ∅

def readEntryBy (entry : Text) : Except EntryFault (Text × Text) :=
  match logicalLines entry with
  | [line] =>
    match readLineBy decode line with
    | .error escape => .error (.badEscape escape)
    | .ok read =>
      if !hasBareSeparator line then .error .noSeparator
      else if read.key.isEmpty then .error .emptyKey
      else .ok (read.key, read.value)
  | lines => .error (.count lines.length)

variable {decode}

theorem readLineBy_eq (h : ∀ t, Paired t → decode t = unescape t) {line : Text}
    (hline : Paired line) : readLineBy decode line = readLine line := by
  unfold readLineBy readLine
  dsimp only
  rw [h _ (paired_takeKey hline), h _ (paired_takeValue hline)]

theorem foldlM_congr {ε α β : Type} {f g : β → α → Except ε β} :
    ∀ {as : List α}, (∀ a ∈ as, ∀ b, f b a = g b a) → ∀ b, as.foldlM f b = as.foldlM g b
  | [], _, _ => rfl
  | a :: as, h, b => by
    obtain ⟨ha, has⟩ := List.forall_mem_cons.mp h
    rw [List.foldlM_cons, List.foldlM_cons, ha]
    exact congrArg _ (funext (foldlM_congr has))

/-- The readers never ask their decoder for a text that ends in a backslash of its own. -/
theorem readTextBy_eq (h : ∀ t, Paired t → decode t = unescape t) (text : Text) :
    readTextBy decode text = readText text := by
  refine foldlM_congr (fun line hline m => ?_) ∅
  rw [readLineBy_eq h (paired_of_mem_logicalLines hline), addLine]

theorem readEntryBy_eq (h : ∀ t, Paired t → decode t = unescape t) (entry : Text) :
    readEntryBy decode entry = readEntry entry := by
  have hpaired : ∀ line ∈ logicalLines entry, Paired line := fun _ => paired_of_mem_logicalLines
  unfold readEntryBy readEntry
  generalize logicalLines entry = lines at hpaired
  rcases lines with _ | ⟨line, _ | ⟨next, lines⟩⟩
  · rfl
  · have hread := readLineBy_eq h (hpaired line List.mem_cons_self)
    rcases hline : readLine line with escape | read
    · simp only [hread, hline]
    · simp only [hread, hline]
  · rfl

end Readers

/-- What the readers of a line can rely on. -/
structure ReadsPaired (line : Text) : Prop where
  whole : Paired line
  key : Paired (takeKey line).1
  value : Paired (takeValue (takeKey line).2).1
  within : ∀ stops index, Visits stops line index → index ≤ line.length
  cut : ∃ index, HaltsAt endsKey line index ∧ takeKey line = (line.take index, line.drop index)
  separator : ∃ index, HaltsAt isSeparator line index
    ∧ hasBareSeparator line = decide (index < line.length)

theorem Paired.reads {line : Text} (h : Paired line) : ReadsPaired line := by
  obtain ⟨keyEnd, hkeyEnd⟩ := exists_haltsAt endsKey line
  obtain ⟨separator, hseparator⟩ := exists_haltsAt isSeparator line
  exact {
    whole := h
    key := paired_takeKey h
    value := paired_takeValue h
    within := fun _ _ hvisits => (hvisits.within h).1
    cut := ⟨keyEnd, hkeyEnd, hkeyEnd.takeKey_eq⟩
    separator := ⟨separator, hseparator, hseparator.hasBareSeparator_eq⟩ }

/-- Every logical line ends in pairs of backslashes, and so do its key and its value before they are
decoded; the loops that look for the end of the key and for a separator stay within it. What the
decoder answers to a backslash at the end makes no difference to a text or an entry. -/
theorem logicalLines_paired (text : Text) :
    (∀ line ∈ logicalLines text, ReadsPaired line)
      ∧ unescapeWith (.ok [backslash]) = unescape
      ∧ ∀ atEnd, readTextBy (unescapeWith atEnd) text = readText text
        ∧ readEntryBy (unescapeWith atEnd) text = readEntry text := by
  refine ⟨fun line hline => (paired_of_mem_logicalLines hline).reads,
    funext fun t => unescapeWith_eq (.inr rfl), fun atEnd => ?_⟩
  have hdecode : ∀ t, Paired t → unescapeWith atEnd t = unescape t :=
    fun t ht => unescapeWith_eq (.inl ht)
  exact ⟨readTextBy_eq hdecode text, readEntryBy_eq hdecode text⟩

/-- A line that goes on where the text ends keeps a pair of its three backslashes. -/
example : logicalLines "a\\\\\\" = [Text.ofString "a\\\\"] ∧ Paired "a\\\\" := by
  refine ⟨by cbv, rfl⟩

end PropertyLayers.Properties
