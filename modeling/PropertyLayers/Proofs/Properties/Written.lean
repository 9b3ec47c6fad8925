import Mathlib.Tactic.SplitIfs
import PropertyLayers.Properties.Document
import PropertyLayers.Proofs.Properties.Inline

/-!
# Properties that are written

A key and a value are written as a line in which every code point that means something to the
grammar is escaped. Such a line is one physical and one logical line (`logicalLines_join`) and is
read back as it was meant (`readLine_of_spells`), so pairs that are written one after the other make
up the map of these pairs, whatever their keys and values are (`read_written`).
-/

namespace PropertyLayers.Properties

abbrev backslash : CodePoint := '\\'

abbrev equalsSign : CodePoint := '='

abbrev lineFeed : CodePoint := '\n'

/-- What stands behind the backslash of a code point that has to be escaped. -/
def escapeSign? (c : CodePoint) : Option CodePoint :=
  if c = '\t' then some 't'
  else if c = '\n' then some 'n'
  else if c = '\r' then some 'r'
  else if c = '\x0c' then some 'f'
  else if c = '\\' ∨ c = ' ' ∨ c = '=' ∨ c = ':' ∨ c = '#' ∨ c = '!' then some c
  else none

def escapeCodePoint (c : CodePoint) : Text :=
  match escapeSign? c with
  | some sign => [backslash, sign]
  | none => [c]

def escape (t : Text) : Text := t.flatMap escapeCodePoint

def writeLine (key value : Text) : Text := escape key ++ equalsSign :: escape value

/-- What a physical line may end with. -/
inductive LineEnding where
  | lf
  | cr
  | crlf

def LineEnding.text : LineEnding → Text
  | .lf => "\n"
  | .cr => "\r"
  | .crlf => "\r\n"

/-- A line for each pair of a key and a value. -/
def writtenLines (pairs : List (Text × Text)) : List Text := pairs.map fun p => writeLine p.1 p.2

/-! ## Escaped texts -/

/-- A code point that means nothing to the grammar, wherever it stands. -/
structure IsPlain (c : CodePoint) : Prop where
  not_backslash : c ≠ '\\'
  not_spacing : isSpacing c = false
  not_separator : isSeparator c = false
  not_comment : c ≠ '#' ∧ c ≠ '!'
  not_break : c ≠ '\n' ∧ c ≠ '\r'

/-- A sign that stands for the code point behind a backslash. -/
structure IsSignOf (sign c : CodePoint) : Prop where
  escaped_eq : escaped sign = c
  not_hex : sign ≠ 'u'
  not_break : sign ≠ '\n' ∧ sign ≠ '\r'

theorem isSignOf_of_escapeSign? {sign c : CodePoint} (h : escapeSign? c = some sign) :
    IsSignOf sign c := by
  unfold escapeSign? at h
  split_ifs at h with htab hfeed hreturn hform hself
  · cases h
    exact ⟨htab.symm, by decide, by decide⟩
  · cases h
    exact ⟨hfeed.symm, by decide, by decide⟩
  · cases h
    exact ⟨hreturn.symm, by decide, by decide⟩
  · cases h
    exact ⟨hform.symm, by decide, by decide⟩
  · cases h
    rcases hself with rfl | rfl | rfl | rfl | rfl | rfl <;>
      exact ⟨by decide, by decide, by decide⟩

theorem isPlain_of_escapeSign? {c : CodePoint} (h : escapeSign? c = none) : IsPlain c := by
  unfold escapeSign? at h
  split_ifs at h with htab hfeed hreturn hform hself
  simp only [not_or] at hself
  obtain ⟨hbackslash, hspace, hequals, hcolon, hhash, hbang⟩ := hself
  exact ⟨hbackslash, by simp [isSpacing, hspace, htab, hform],
    by simp [isSeparator, hequals, hcolon], ⟨hhash, hbang⟩, ⟨hfeed, hreturn⟩⟩

/-- An escaped text goes on with an escape or with a plain code point. -/
theorem escape_cons_cases (c : CodePoint) (t : Text) :
    (∃ sign, IsSignOf sign c ∧ escape (c :: t) = backslash :: sign :: escape t)
      ∨ IsPlain c ∧ escape (c :: t) = c :: escape t := by
  rcases hs : escapeSign? c with _ | sign
  · refine .inr ⟨isPlain_of_escapeSign? hs, ?_⟩
    simp [escape, escapeCodePoint, hs]
  · refine .inl ⟨sign, isSignOf_of_escapeSign? hs, ?_⟩
    simp [escape, escapeCodePoint, hs]

theorem unescape_escape : ∀ t, unescape (escape t) = .ok t
  | [] => rfl
  | c :: t => by
    have ih := unescape_escape t
    rcases escape_cons_cases c t with ⟨sign, hsign, he⟩ | ⟨hplain, he⟩
    · rw [he, unescape.eq_def]
      simp [hsign.not_hex, hsign.escaped_eq, ih, Except.map]
    · rw [he, unescape.eq_def]
      simp [hplain.not_backslash, ih, Except.map]

theorem takeKey_escape_append (rest : Text) :
    ∀ t, takeKey (escape t ++ equalsSign :: rest) = (escape t, equalsSign :: rest)
  | [] => by
    show takeKey (equalsSign :: rest) = _
    rw [takeKey.eq_def]
    simp [isSeparator, escape]
  | c :: t => by
    have ih := takeKey_escape_append rest t
    rcases escape_cons_cases c t with ⟨sign, -, he⟩ | ⟨hplain, he⟩
    · rw [he, List.cons_append, List.cons_append, takeKey.eq_def]
      simp [ih]
    · rw [he, List.cons_append, takeKey.eq_def]
      simp [hplain.not_backslash, hplain.not_separator, hplain.not_spacing, ih]

theorem hasBareSeparator_escape_append (rest : Text) :
    ∀ t, hasBareSeparator (escape t ++ equalsSign :: rest)
  | [] => by
    show hasBareSeparator (equalsSign :: rest)
    rw [hasBareSeparator.eq_def]
    simp [isSeparator]
  | c :: t => by
    have ih := hasBareSeparator_escape_append rest t
    rcases escape_cons_cases c t with ⟨sign, -, he⟩ | ⟨hplain, he⟩
    · rw [he, List.cons_append, List.cons_append, hasBareSeparator.eq_def]
      simp [ih]
    · rw [he, List.cons_append, hasBareSeparator.eq_def]
      simp [hplain.not_backslash, ih]

theorem dropSpacing_escape_append {rest : Text} (h : dropSpacing rest = rest) :
    ∀ t, dropSpacing (escape t ++ rest) = escape t ++ rest
  | [] => h
  | c :: t => by
    rcases escape_cons_cases c t with ⟨sign, -, he⟩ | ⟨hplain, he⟩
    · rw [he]
      rfl
    · rw [he, List.cons_append, dropSpacing, List.dropWhile_cons_of_neg]
      simp [hplain.not_spacing]

theorem isIgnored_escape_append {rest : Text} (h : isIgnored rest = false) :
    ∀ t, isIgnored (escape t ++ rest) = false
  | [] => h
  | c :: t => by
    rcases escape_cons_cases c t with ⟨sign, -, he⟩ | ⟨hplain, he⟩
    · rw [he]
      rfl
    · rw [he, List.cons_append]
      simp [isIgnored, hplain.not_comment]

theorem trailingBackslashes_append (front back : Text) :
    trailingBackslashes (front ++ back) =
      if trailingBackslashes back = back.length then back.length + trailingBackslashes front
      else trailingBackslashes back := by
  unfold trailingBackslashes
  rw [List.reverse_append, List.takeWhile_append, List.length_reverse]
  split
  · rw [List.length_append, List.length_reverse]
  · rfl

theorem trailingBackslashes_append_singleton (line : Text) (c : CodePoint) :
    trailingBackslashes (line ++ [c]) = if c = '\\' then trailingBackslashes line + 1 else 0 := by
  unfold trailingBackslashes
  rw [List.reverse_append, List.reverse_singleton, List.singleton_append, List.takeWhile_cons]
  by_cases hc : c = '\\' <;> simp [hc]

/-- Behind an even number of backslashes, what follows decides alone whether the line goes on. -/
theorem endsOpen_append {front : Text} (h : endsOpen front = false) (back : Text) :
    endsOpen (front ++ back) = endsOpen back := by
  unfold endsOpen at h ⊢
  rw [trailingBackslashes_append]
  simp only [decide_eq_false_iff_not] at h
  split
  · rename_i hall
    rw [hall]
    refine decide_eq_decide.mpr ?_
    omega
  · rfl

theorem endsOpen_append_of_ne {line : Text} {c : CodePoint} (h : c ≠ '\\') :
    endsOpen (line ++ [c]) = false := by
  simp [endsOpen, trailingBackslashes_append_singleton, h]

theorem endsOpen_pair (sign : CodePoint) : endsOpen [backslash, sign] = false := by
  by_cases hs : sign = '\\'
  · rw [hs]
    rfl
  · show endsOpen ([backslash] ++ [sign]) = false
    exact endsOpen_append_of_ne hs

theorem endsOpen_escape : ∀ t, endsOpen (escape t) = false
  | [] => rfl
  | c :: t => by
    -- Each piece ends in an even number of backslashes, so the pieces behind it decide.
    have ih := endsOpen_escape t
    rcases escape_cons_cases c t with ⟨sign, -, he⟩ | ⟨hplain, he⟩
    · rw [he, ← ih]
      exact endsOpen_append (endsOpen_pair sign) (escape t)
    · have hpiece : endsOpen ([] ++ [c]) = false := endsOpen_append_of_ne hplain.not_backslash
      rw [he, ← ih]
      exact endsOpen_append hpiece (escape t)

/-! ## Lines -/

/-- A line that is one physical line. -/
def Unbroken (line : Text) : Prop := ∀ c ∈ line, c ≠ '\n' ∧ c ≠ '\r'

/-- A physical line that is one logical line as it stands. -/
structure Complete (line : Text) : Prop where
  unbroken : Unbroken line
  not_indented : dropSpacing line = line
  not_ignored : isIgnored line = false
  not_open : endsOpen line = false

theorem unbroken_nil : Unbroken [] := by simp [Unbroken]

theorem Unbroken.cons {c : CodePoint} {line : Text} (hc : c ≠ '\n' ∧ c ≠ '\r')
    (h : Unbroken line) : Unbroken (c :: line) :=
  List.forall_mem_cons.mpr ⟨hc, h⟩

theorem Unbroken.append {front back : Text} (hf : Unbroken front) (hb : Unbroken back) :
    Unbroken (front ++ back) :=
  List.forall_mem_append.mpr ⟨hf, hb⟩

theorem unbroken_escape : ∀ t, Unbroken (escape t)
  | [] => unbroken_nil
  | c :: t => by
    have ih := unbroken_escape t
    rcases escape_cons_cases c t with ⟨sign, hsign, he⟩ | ⟨hplain, he⟩
    · rw [he]
      exact .cons (by decide) (.cons hsign.not_break ih)
    · rw [he]
      exact .cons hplain.not_break ih

/-- What stands for a value behind a separator, up to the end of the line. -/
structure Spells (raw value : Text) : Prop where
  unbroken : Unbroken raw
  not_indented : dropSpacing raw = raw
  not_open : endsOpen raw = false
  decoded : unescape raw = .ok value

theorem spells_escape (value : Text) : Spells (escape value) value where
  unbroken := unbroken_escape value
  not_indented := by
    have h : dropSpacing (escape value ++ []) = escape value ++ [] :=
      dropSpacing_escape_append rfl value
    rwa [List.append_nil] at h
  not_open := endsOpen_escape value
  decoded := unescape_escape value

theorem complete_of_spells {raw value : Text} (h : Spells raw value) (key : Text) :
    Complete (escape key ++ equalsSign :: raw) where
  unbroken := (unbroken_escape key).append (h.unbroken.cons (by decide))
  not_indented := dropSpacing_escape_append rfl key
  not_ignored := isIgnored_escape_append rfl key
  not_open := by
    have hline : escape key ++ equalsSign :: raw = (escape key ++ [equalsSign]) ++ raw := by simp
    rw [hline, endsOpen_append (endsOpen_append_of_ne (by decide))]
    exact h.not_open

theorem complete_writeLine (key value : Text) : Complete (writeLine key value) :=
  complete_of_spells (spells_escape value) key

theorem joinLines_of_complete :
    ∀ {lines : List Text}, (∀ line ∈ lines, Complete line) → joinLines none lines = lines
  | [], _ => rfl
  | line :: lines, h => by
    have hline := h line List.mem_cons_self
    have ih := joinLines_of_complete fun l hl => h l (List.mem_cons_of_mem line hl)
    rw [joinLines.eq_def]
    simp [hline.not_indented, hline.not_ignored, hline.not_open, ih]

theorem physicalLinesFrom_append {line : Text} (h : Unbroken line) (rest : Text) :
    physicalLinesFrom false (line ++ rest) =
      line.foldr extendFirst (physicalLinesFrom false rest) := by
  induction line with
  | nil => rfl
  | cons c line ih =>
    have hc := h c List.mem_cons_self
    have ih := ih fun d hd => h d (List.mem_cons_of_mem c hd)
    rw [List.cons_append, physicalLinesFrom, if_neg hc.1, if_neg hc.2, ih]
    rfl

theorem foldr_extendFirst (line first : Text) (lines : List Text) :
    line.foldr extendFirst (first :: lines) = (line ++ first) :: lines := by
  induction line with
  | nil => rfl
  | cons c line ih =>
    rw [List.foldr_cons, ih]
    rfl

/-- A line ending ends a line, unless what follows would make a longer ending of it. -/
theorem physicalLinesFrom_ending (ending : LineEnding) {rest : Text}
    (h : ending = .cr → rest.head? ≠ some lineFeed) :
    physicalLinesFrom false (ending.text ++ rest) = [] :: physicalLinesFrom false rest := by
  cases ending with
  | lf => rfl
  | crlf => rfl
  | cr =>
    show [] :: physicalLinesFrom true rest = _
    rcases rest with _ | ⟨c, rest⟩
    · rfl
    · have hc : c ≠ '\n' := by simpa using h rfl
      rw [physicalLinesFrom, physicalLinesFrom, if_neg hc, if_neg hc]

theorem physicalLines_join (ending : LineEnding) :
    ∀ {line : Text} {lines : List Text}, (∀ l ∈ line :: lines, Complete l) →
      physicalLines (Text.join ending.text (line :: lines)) = line :: lines
  | line, [], h => by
    have hline := h line List.mem_cons_self
    have happend := physicalLinesFrom_append hline.unbroken []
    rw [List.append_nil] at happend
    rw [Text.join, physicalLines, happend, physicalLinesFrom, foldr_extendFirst, List.append_nil]
  | line, next :: lines, h => by
    have hline := h line List.mem_cons_self
    have hnext := h next (List.mem_cons_of_mem line List.mem_cons_self)
    have ih := physicalLines_join ending fun l hl => h l (List.mem_cons_of_mem line hl)
    -- A line feed behind a carriage return would be taken for a part of the ending.
    have hhead : (Text.join ending.text (next :: lines)).head? ≠ some lineFeed := by
      rcases next with _ | ⟨c, next⟩
      · exact absurd hnext.not_ignored (by simp [isIgnored])
      · have hc := (hnext.unbroken c List.mem_cons_self).1
        cases lines <;> simpa [Text.join] using hc
    have hjoin : Text.join ending.text (line :: next :: lines) =
        line ++ (ending.text ++ Text.join ending.text (next :: lines)) := by
      simp [Text.join]
    rw [physicalLines] at ih ⊢
    rw [hjoin, physicalLinesFrom_append hline.unbroken,
      physicalLinesFrom_ending ending fun _ => hhead, ih, foldr_extendFirst, List.append_nil]

theorem logicalLines_join (ending : LineEnding) {lines : List Text}
    (h : ∀ line ∈ lines, Complete line) :
    logicalLines (Text.join ending.text lines) = lines := by
  rcases lines with _ | ⟨line, lines⟩
  · rfl
  · rw [logicalLines, physicalLines_join ending h, joinLines_of_complete h]

/-! ## Reading -/

theorem logicalLines_of_complete {line : Text} (h : Complete line) :
    logicalLines line = [line] := by
  have hlines : ∀ l ∈ [line], Complete l := by simpa using h
  exact logicalLines_join .lf hlines

theorem readLine_of_spells {raw value : Text} (h : Spells raw value) (key : Text) :
    readLine (escape key ++ equalsSign :: raw) = .ok ⟨key, value, true⟩ := by
  have hvalue : takeValue (equalsSign :: raw) = (raw, true) := by
    show (dropSpacing raw, true) = _
    rw [h.not_indented]
  simp only [readLine, takeKey_escape_append, hvalue, unescape_escape, h.decoded]
  rfl

theorem addLine_of_spells {raw value : Text} (h : Spells raw value) (key : Text)
    (m : PropertyMap) :
    addLine m (escape key ++ equalsSign :: raw) = .ok (m.insert key value) := by
  rw [addLine, readLine_of_spells h]
  rfl

theorem foldlM_addLine_written :
    ∀ (pairs : List (Text × Text)) (m : PropertyMap),
      (writtenLines pairs).foldlM addLine m = .ok (pairs.foldl (fun m p => m.insert p.1 p.2) m)
  | [], _ => rfl
  | (key, value) :: pairs, m => by
    have ih := foldlM_addLine_written pairs (m.insert key value)
    have hadd : addLine m (writeLine key value) = .ok (m.insert key value) :=
      addLine_of_spells (spells_escape value) key m
    rw [writtenLines, List.map_cons, List.foldlM_cons, hadd]
    exact ih

theorem isBlank_separated (rawKey raw : Text) :
    (rawKey ++ equalsSign :: raw).isBlank = false := by
  refine List.all_eq_false.mpr ⟨equalsSign, ?_, by decide⟩
  exact List.mem_append_right _ List.mem_cons_self

theorem readEntry_of_spells {raw value : Text} (h : Spells raw value) (key : Text) :
    readEntry (escape key ++ equalsSign :: raw) =
      if key.isEmpty then .error .emptyKey else .ok (key, value) := by
  have hbare : hasBareSeparator (escape key ++ equalsSign :: raw) :=
    hasBareSeparator_escape_append _ key
  simp only [readEntry, logicalLines_of_complete (complete_of_spells h key),
    readLine_of_spells h, hbare]
  rfl

theorem addEntry_of_spells {raw value key : Text} (h : Spells raw value) (hkey : key ≠ [])
    (m : PropertyMap) :
    addEntry m (escape key ++ equalsSign :: raw) = .ok (m.insert key value) := by
  simp [addEntry, isBlank_separated, readEntry_of_spells h, hkey]

theorem foldlM_addEntry_written :
    ∀ {pairs : List (Text × Text)} (m : PropertyMap), (∀ p ∈ pairs, p.1 ≠ []) →
      (writtenLines pairs).foldlM addEntry m = .ok (pairs.foldl (fun m p => m.insert p.1 p.2) m)
  | [], _, _ => rfl
  | (key, value) :: pairs, m, h => by
    have hkey : key ≠ [] := h (key, value) List.mem_cons_self
    have ih := foldlM_addEntry_written (m.insert key value)
      fun p hp => h p (List.mem_cons_of_mem (key, value) hp)
    have hadd : addEntry m (writeLine key value) = .ok (m.insert key value) :=
      addEntry_of_spells (spells_escape value) hkey m
    rw [writtenLines, List.map_cons, List.foldlM_cons, hadd]
    exact ih

theorem rejects_writeLine_of_empty (value : Text) : Rejects (writeLine [] value) .emptyKey :=
  ⟨isBlank_separated (escape []) (escape value), readEntry_of_spells (spells_escape value) []⟩

/-- Written lines that any one line ending keeps apart are read as the map of their pairs, the first
place and the last value of each key. As inline entries they are read so too, exactly where no key
is empty. -/
theorem read_written (pairs : List (Text × Text)) :
    (∀ ending : LineEnding,
        readText (Text.join ending.text (writtenLines pairs)) = .ok (.ofPairs pairs))
      ∧ (readEntries (writtenLines pairs) = .ok (.ofPairs pairs) ↔ ∀ p ∈ pairs, p.1 ≠ []) := by
  rw [PropertyMap.ofPairs_eq_foldl]
  refine ⟨fun ending => ?_, fun hread p hp hkey => ?_, foldlM_addEntry_written ∅⟩
  · have hcomplete : ∀ line ∈ writtenLines pairs, Complete line := by
      intro line hl
      obtain ⟨p, -, rfl⟩ := List.mem_map.mp hl
      exact complete_writeLine p.1 p.2
    rw [readText, logicalLines_join ending hcomplete]
    exact foldlM_addLine_written pairs ∅
  · have hentry : writeLine [] p.2 ∈ writtenLines pairs :=
      List.mem_map.mpr ⟨p, hp, by rw [hkey]⟩
    obtain ⟨malformed, hfirst⟩ := exists_firstRejected hentry (rejects_writeLine_of_empty p.2)
    rw [readEntries_eq_error_iff.mpr hfirst] at hread
    cases hread

/-- A key that looks like a comment and holds a line break, and a value that ends in a
backslash. -/
example : readText "\\#a\\n=\\ b\\\\" = .ok (.ofPairs [("#a\n", " b\\")]) := by cbv

end PropertyLayers.Properties
