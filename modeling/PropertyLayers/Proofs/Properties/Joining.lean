import PropertyLayers.Proofs.Properties.Written

/-!
# Lines that go on

A text falls into physical lines in one way only (`physicalLines_iff`). Whether a logical line goes
on is read off all that has been joined to it so far; but what is kept of a line that goes on ends
in an even number of backslashes, so that the last physical line alone decides (`endsOpen_append`).
The logical lines are therefore those of a reading that looks at one physical line after the other
(`logicalLines_eq_lines`).
-/

namespace PropertyLayers.Properties

/-! ## Physical lines -/

/-- The text is made up of these lines and of line endings between them. A line feed behind a
carriage return belongs to the same ending. -/
inductive PhysicalLines : Text → List Text → Prop
  | last {line : Text} (unbroken : Unbroken line) : PhysicalLines line [line]
  | ended {line rest : Text} {lines : List Text} (ending : LineEnding) (unbroken : Unbroken line)
      (whole : ending = .cr → rest.head? ≠ some lineFeed) (later : PhysicalLines rest lines) :
      PhysicalLines (line ++ (ending.text ++ rest)) (line :: lines)

theorem PhysicalLines.eq {text : Text} {lines : List Text} (h : PhysicalLines text lines) :
    physicalLines text = lines := by
  induction h with
  | last unbroken =>
    have happend := physicalLinesFrom_append unbroken []
    rw [List.append_nil] at happend
    rw [physicalLines, happend, physicalLinesFrom, foldr_extendFirst, List.append_nil]
  | ended ending unbroken whole _ ih =>
    rw [physicalLines] at ih ⊢
    rw [physicalLinesFrom_append unbroken, physicalLinesFrom_ending ending whole, ih,
      foldr_extendFirst, List.append_nil]

theorem PhysicalLines.cons {c : CodePoint} {text : Text} {lines : List Text}
    (hc : c ≠ '\n' ∧ c ≠ '\r') (h : PhysicalLines text lines) :
    ∃ lines', PhysicalLines (c :: text) lines' := by
  cases h with
  | last unbroken => exact ⟨_, .last (unbroken.cons hc)⟩
  | ended ending unbroken whole later => exact ⟨_, .ended ending (unbroken.cons hc) whole later⟩

theorem exists_physicalLines : ∀ text : Text, ∃ lines, PhysicalLines text lines
  | [] => ⟨_, .last unbroken_nil⟩
  | c :: rest => by
    obtain ⟨lines, h⟩ := exists_physicalLines rest
    by_cases hfeed : c = '\n'
    · subst hfeed
      exact ⟨_, .ended .lf unbroken_nil (by simp) h⟩
    by_cases hreturn : c = '\r'
    · subst hreturn
      rcases rest with _ | ⟨d, rest⟩
      · exact ⟨_, .ended .cr unbroken_nil (by simp) h⟩
      by_cases hd : d = '\n'
      · subst hd
        obtain ⟨lines, h⟩ := exists_physicalLines rest
        exact ⟨_, .ended .crlf unbroken_nil (by simp) h⟩
      · exact ⟨_, .ended .cr unbroken_nil (by simpa using hd) h⟩
    · exact h.cons ⟨hfeed, hreturn⟩

/-- The physical lines are the only ones that make up the text. -/
theorem physicalLines_iff {text : Text} {lines : List Text} :
    PhysicalLines text lines ↔ lines = physicalLines text := by
  refine ⟨fun h => h.eq.symm, ?_⟩
  rintro rfl
  obtain ⟨lines, h⟩ := exists_physicalLines text
  rw [h.eq]
  exact h

/-! ## Reading physical lines one by one -/

theorem eq_append_of_endsOpen {line : Text} (h : endsOpen line) :
    ∃ kept, line = kept ++ [backslash] ∧ endsOpen kept = false := by
  rcases List.eq_nil_or_concat line with rfl | ⟨kept, c, rfl⟩
  · cases h
  · by_cases hc : c = '\\'
    · refine ⟨kept, by rw [List.concat_eq_append, hc], ?_⟩
      unfold endsOpen at h ⊢
      rw [List.concat_eq_append, trailingBackslashes_append_singleton, if_pos hc] at h
      simp only [decide_eq_true_eq] at h
      simp only [decide_eq_false_iff_not]
      omega
    · rw [List.concat_eq_append, endsOpen_append_of_ne hc] at h
      cases h

/-- The logical lines that are complete, and what there is of one that goes on. -/
structure Joining where
  complete : List Text
  pending? : Option Text

namespace Joining

def start : Joining := ⟨[], none⟩

/-- Reads one more physical line, which alone decides whether the logical line goes on. -/
def add (state : Joining) (physical : Text) : Joining :=
  let own := dropSpacing physical
  if state.pending? = none ∧ isIgnored own then state
  else
    let before := state.pending?.getD []
    if endsOpen own then ⟨state.complete, some (before ++ own.dropLast)⟩
    else ⟨state.complete ++ [before ++ own], none⟩

def ofLines (physical : List Text) : Joining := physical.foldl add start

/-- A line that goes on at the end of the text is complete. -/
def lines (state : Joining) : List Text := state.complete ++ state.pending?.toList

/-- What is kept of a line that goes on ends in an even number of backslashes. -/
def Even (state : Joining) : Prop := endsOpen (state.pending?.getD []) = false

theorem even_start : start.Even := rfl

variable {state : Joining}

theorem Even.add (h : state.Even) (physical : Text) : (state.add physical).Even := by
  unfold Joining.add
  dsimp only
  split
  · exact h
  · split
    · rename_i hopen
      obtain ⟨kept, hown, hkept⟩ := eq_append_of_endsOpen hopen
      show endsOpen (state.pending?.getD [] ++ (dropSpacing physical).dropLast) = false
      rw [hown, List.dropLast_concat, endsOpen_append h, hkept]
    · rfl

theorem joinLines_cons (h : state.Even) (physical : Text) (rest : List Text) :
    state.complete ++ joinLines state.pending? (physical :: rest) =
      (state.add physical).complete ++ joinLines (state.add physical).pending? rest := by
  have hdecision := endsOpen_append h (dropSpacing physical)
  rw [joinLines.eq_def]
  simp only [hdecision]
  unfold add
  dsimp only
  by_cases hskip : state.pending? = none ∧ isIgnored (dropSpacing physical)
  · rw [if_pos hskip, if_pos (by simpa [hskip.1] using hskip.2), hskip.1]
  · have hskip' : ¬ (state.pending?.isNone &&
        isIgnored (state.pending?.getD [] ++ dropSpacing physical)) = true := by
      rcases hp : state.pending? with _ | before
      · simpa [hp] using hskip
      · simp
    rw [if_neg hskip, if_neg hskip']
    by_cases hopen : endsOpen (dropSpacing physical)
    · obtain ⟨kept, hown, -⟩ := eq_append_of_endsOpen hopen
      rw [if_pos hopen, if_pos hopen, hown, ← List.append_assoc, List.dropLast_concat,
        List.dropLast_concat]
    · rw [if_neg hopen, if_neg hopen, List.append_assoc]
      rfl

theorem joinLines_append (rest : List Text) :
    ∀ (before : List Text) {state : Joining}, state.Even →
      state.complete ++ joinLines state.pending? (before ++ rest) =
        (before.foldl add state).complete ++ joinLines (before.foldl add state).pending? rest
  | [], _, _ => rfl
  | physical :: before, _, h => by
    rw [List.cons_append, joinLines_cons h, joinLines_append rest before (h.add physical)]
    rfl

theorem even_foldl : ∀ (before : List Text) {state : Joining}, state.Even →
    (before.foldl add state).Even
  | [], _, h => h
  | physical :: before, _, h => even_foldl before (h.add physical)

theorem lines_eq (state : Joining) :
    state.lines = state.complete ++ joinLines state.pending? [] := by
  unfold lines
  rcases state.pending? with _ | line <;> rfl

end Joining

/-- The logical lines of a text are those of its physical lines, read one by one. At each of them
the logical lines so far are the same, and all that is joined decides as the physical line does. -/
theorem logicalLines_eq_lines (text : Text) :
    ∃ physical, (∀ others, PhysicalLines text others ↔ others = physical)
      ∧ logicalLines text = (Joining.ofLines physical).lines
      ∧ ∀ before own after, physical = before ++ own :: after →
        let state := Joining.ofLines before
        logicalLines text = state.complete ++ joinLines state.pending? (own :: after)
          ∧ endsOpen (state.pending?.getD [] ++ dropSpacing own) = endsOpen (dropSpacing own) := by
  have hrun : ∀ before rest, joinLines none (before ++ rest) =
      (Joining.ofLines before).complete ++ joinLines (Joining.ofLines before).pending? rest :=
    fun before rest => Joining.joinLines_append rest before Joining.even_start
  refine ⟨physicalLines text, fun _ => physicalLines_iff, ?_, fun before own after h => ⟨?_, ?_⟩⟩
  · rw [Joining.lines_eq, ← hrun, List.append_nil]
    rfl
  · rw [← hrun, ← h]
    rfl
  · exact endsOpen_append (Joining.even_foldl before Joining.even_start) (dropSpacing own)

/-- The second line is three backslashes: it goes on, and two of them are kept. -/
example : logicalLines "a\\\n\\\\\\\n  b" = [Text.ofString "a\\\\b"] := by cbv

end PropertyLayers.Properties
