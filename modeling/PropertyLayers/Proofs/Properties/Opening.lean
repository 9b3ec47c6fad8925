import Mathlib.Data.List.Induction
import PropertyLayers.Proofs.Properties.Joining

/-!
# How logical lines begin

A physical line at which a logical line begins is neither blank nor a comment. But where it is a
backslash alone, which says no more than that the logical line goes on, the logical line begins with
what is joined to it, and that is not looked at: it may be blank, a comment, or missing. Only so is a
logical line empty or looks like a comment, and none begins with white space (`logicalLines_begin`).
-/

namespace PropertyLayers.Properties

def IsComment (line : Text) : Prop := ∃ c, line.head? = some c ∧ (c = '#' ∨ c = '!')

/-- The code point may begin a line that is neither blank nor a comment. -/
structure IsPlainStart (c : CodePoint) : Prop where
  not_spacing : isSpacing c = false
  not_comment : c ≠ '#' ∧ c ≠ '!'

/-- A logical line begins with physical lines that are backslashes alone, and these come behind. -/
def GoesOnAlone (physical after : List Text) : Prop :=
  ∃ before alone, physical = before ++ (alone ++ after) ∧ (Joining.ofLines before).pending? = none
    ∧ alone ≠ [] ∧ ∀ own ∈ alone, dropSpacing own = [backslash]

/-- A line that begins like this begins plainly, or with the first physical line behind backslashes
that stand alone. -/
def Begun (physical : List Text) (first? : Option CodePoint) : Prop :=
  (∃ c, first? = some c ∧ IsPlainStart c)
    ∨ ∃ own after, GoesOnAlone physical (own :: after) ∧ first? = (dropSpacing own).head?

theorem isSpacing_of_head?_dropSpacing {line : Text} {c : CodePoint}
    (h : (dropSpacing line).head? = some c) : isSpacing c = false := by
  have := List.head?_dropWhile_not isSpacing line
  rw [dropSpacing] at h
  simpa [h] using this

theorem exists_isPlainStart {line : Text} (h : ¬ isIgnored (dropSpacing line)) :
    ∃ c, (dropSpacing line).head? = some c ∧ IsPlainStart c := by
  rcases hown : dropSpacing line with _ | ⟨c, rest⟩ <;> rw [hown] at h
  · exact absurd rfl h
  · refine ⟨c, rfl, isSpacing_of_head?_dropSpacing (by rw [hown]; rfl), ?_⟩
    simpa [isIgnored] using h

theorem GoesOnAlone.append {physical after : List Text} (h : GoesOnAlone physical after)
    (own : Text) : GoesOnAlone (physical ++ [own]) (after ++ [own]) := by
  obtain ⟨before, alone, rfl, hbefore, halone, hall⟩ := h
  exact ⟨before, alone, by simp, hbefore, halone, hall⟩

theorem Begun.append {physical : List Text} {first? : Option CodePoint}
    (h : Begun physical first?) (own : Text) : Begun (physical ++ [own]) first? := by
  rcases h with h | ⟨next, after, halone, hfirst⟩
  · exact .inl h
  · exact .inr ⟨next, after ++ [own], halone.append own, hfirst⟩

namespace Joining

/-- The physical line is passed over, as it is where a logical line would begin. -/
def Skips (state : Joining) (physical : Text) : Prop :=
  state.pending? = none ∧ isIgnored (dropSpacing physical)

/-- What there is of the logical line that goes on with the next physical line. -/
def soFar (state : Joining) : Text := state.pending?.getD []

/-- What one more physical line can do. -/
inductive Step (state : Joining) (physical : Text) : Joining → Prop
  | skip (skips : state.Skips physical) : Step state physical state
  | goOn {kept : Text} (reads : ¬ state.Skips physical)
      (own : dropSpacing physical = kept ++ [backslash]) :
      Step state physical ⟨state.complete, some (state.soFar ++ kept)⟩
  | finish (reads : ¬ state.Skips physical) :
      Step state physical ⟨state.complete ++ [state.soFar ++ dropSpacing physical], none⟩

theorem step_add (state : Joining) (physical : Text) :
    Step state physical (state.add physical) := by
  unfold add
  dsimp only
  split_ifs with hskips hopen
  · exact .skip hskips
  · obtain ⟨kept, hown, -⟩ := eq_append_of_endsOpen hopen
    rw [hown, List.dropLast_concat]
    exact .goOn hskips hown
  · exact .finish hskips

theorem ofLines_append (before : List Text) (own : Text) :
    ofLines (before ++ [own]) = (ofLines before).add own := by
  rw [ofLines, List.foldl_append]
  rfl

theorem lines_physicalLines (text : Text) :
    (ofLines (physicalLines text)).lines = logicalLines text := by
  have h := joinLines_append [] (physicalLines text) even_start
  rw [List.append_nil] at h
  rw [lines_eq]
  exact h.symm

/-- How the lines begin that make up a state in which these physical lines have been read. -/
structure Opened (physical : List Text) (state : Joining) : Prop where
  complete : ∀ line ∈ state.complete, Begun physical line.head?
  pending : ∀ line, state.pending? = some line →
    line = [] ∧ GoesOnAlone physical [] ∨ line ≠ [] ∧ Begun physical line.head?

variable {physical : List Text} {own : Text}

theorem Opened.begun_joined (h : Opened physical (ofLines physical))
    (hreads : ¬ (ofLines physical).Skips own) :
    Begun (physical ++ [own]) ((ofLines physical).soFar ++ dropSpacing own).head? := by
  unfold soFar
  rcases hpending : (ofLines physical).pending? with _ | line
  · exact .inl (exists_isPlainStart fun hignored => hreads ⟨hpending, hignored⟩)
  · rcases h.pending line hpending with ⟨rfl, halone⟩ | ⟨hne, hbegun⟩
    · exact .inr ⟨own, [], halone.append own, rfl⟩
    · obtain ⟨c, rest, rfl⟩ := List.exists_cons_of_ne_nil hne
      exact hbegun.append own

theorem Opened.goesOnAlone (h : Opened physical (ofLines physical))
    (hnil : (ofLines physical).soFar = []) (hown : dropSpacing own = [backslash]) :
    GoesOnAlone (physical ++ [own]) [] := by
  rcases hpending : (ofLines physical).pending? with _ | line
  · exact ⟨physical, [own], by simp, hpending, by simp, by simpa⟩
  · rw [soFar, hpending] at hnil
    cases hnil
    obtain ⟨-, before, alone, rfl, hbefore, hne, hall⟩ | ⟨hne, -⟩ := h.pending _ hpending
    · refine ⟨before, alone ++ [own], by simp, hbefore, by simp, ?_⟩
      rw [List.forall_mem_append, List.forall_mem_singleton]
      exact ⟨hall, hown⟩
    · exact absurd rfl hne

-- The induction is on the last line read. A logical line that goes on and has nothing so far is one
-- of backslashes alone, and it stays so only where one more of them is read.
theorem opened_ofLines (physical : List Text) : Opened physical (ofLines physical) := by
  induction physical using List.reverseRecOn with
  | nil => exact ⟨nofun, nofun⟩
  | append_singleton physical own ih =>
    have hkept : ∀ line ∈ (ofLines physical).complete, Begun (physical ++ [own]) line.head? :=
      fun line hm => (ih.complete line hm).append own
    have hstep := step_add (ofLines physical) own
    rw [← ofLines_append] at hstep
    generalize ofLines (physical ++ [own]) = state at hstep
    cases hstep with
    | skip skips =>
      refine ⟨hkept, fun line hline => ?_⟩
      rw [skips.1] at hline
      cases hline
    | @goOn kept reads hown =>
      refine ⟨hkept, fun line hline => ?_⟩
      cases hline
      have hbegun := ih.begun_joined reads
      rw [hown, ← List.append_assoc] at hbegun
      rcases hline : (ofLines physical).soFar ++ kept with _ | ⟨c, rest⟩
      · obtain ⟨hnil, rfl⟩ := List.append_eq_nil_iff.mp hline
        exact .inl ⟨rfl, ih.goesOnAlone hnil hown⟩
      · rw [hline] at hbegun
        exact .inr ⟨List.cons_ne_nil c rest, hbegun⟩
    | finish reads =>
      refine ⟨?_, nofun⟩
      rw [List.forall_mem_append, List.forall_mem_singleton]
      exact ⟨hkept, ih.begun_joined reads⟩

/-! ## What is joined stays -/

theorem mem_complete_foldl {line : Text} :
    ∀ (rest : List Text) {state : Joining}, line ∈ state.complete →
      line ∈ (rest.foldl add state).complete
  | [], _, h => h
  | own :: rest, state, h => by
    refine mem_complete_foldl rest ?_
    have hstep := step_add state own
    generalize state.add own = next at hstep
    cases hstep with
    | skip => exact h
    | goOn => exact h
    | finish => exact List.mem_append_left _ h

/-- A line that begins with the code point is complete or goes on. -/
def HoldsStart (state : Joining) (c : CodePoint) : Prop :=
  ∃ line ∈ state.lines, line.head? = some c

theorem HoldsStart.add {state : Joining} {c : CodePoint} (h : state.HoldsStart c) (own : Text) :
    (state.add own).HoldsStart c := by
  obtain ⟨line, hline, hc⟩ := h
  have hstep := step_add state own
  generalize state.add own = next at hstep
  rcases List.mem_append.mp hline with hcomplete | hpending
  · cases hstep with
    | skip => exact ⟨line, hline, hc⟩
    | goOn => exact ⟨line, List.mem_append_left _ hcomplete, hc⟩
    | finish => exact ⟨line, List.mem_append_left _ (List.mem_append_left _ hcomplete), hc⟩
  · have hpending : state.pending? = some line := by simpa using hpending
    have hjoined : ∀ more, (state.soFar ++ more).head? = some c := by
      intro more
      rw [soFar, hpending, Option.getD_some, List.head?_append, hc]
      rfl
    cases hstep with
    | skip => exact ⟨line, hline, hc⟩
    | @goOn kept => exact ⟨state.soFar ++ kept, by simp [lines], hjoined kept⟩
    | finish => exact ⟨state.soFar ++ dropSpacing own, by simp [lines], hjoined _⟩

theorem HoldsStart.addAll {c : CodePoint} :
    ∀ (rest : List Text) {state : Joining}, state.HoldsStart c →
      (rest.foldl Joining.add state).HoldsStart c
  | [], _, h => h
  | own :: rest, _, h => addAll rest (h.add own)

/-! ## Behind backslashes that stand alone -/

theorem pending?_add_alone {state : Joining} {own : Text} (hnil : state.soFar = [])
    (hown : dropSpacing own = [backslash]) : (state.add own).pending? = some [] := by
  have hreads : ¬ (state.pending? = none ∧ isIgnored (dropSpacing own)) := by
    rw [hown]
    rintro ⟨-, hignored⟩
    cases hignored
  have hopen : endsOpen (dropSpacing own) := by
    rw [hown]
    rfl
  unfold soFar at hnil
  unfold add
  dsimp only
  rw [if_neg hreads, if_pos hopen, hnil, hown]
  rfl

theorem pending?_foldl_alone :
    ∀ {alone : List Text} {state : Joining}, alone ≠ [] → state.soFar = [] →
      (∀ own ∈ alone, dropSpacing own = [backslash]) →
        (alone.foldl add state).pending? = some []
  | [own], state, _, hnil, hall => pending?_add_alone hnil (hall own List.mem_cons_self)
  | own :: next :: alone, state, _, hnil, hall => by
    have hpending := pending?_add_alone hnil (hall own List.mem_cons_self)
    have hnext : (state.add own).soFar = [] := by
      rw [soFar, hpending]
      rfl
    show ((next :: alone).foldl add (state.add own)).pending? = some []
    exact pending?_foldl_alone (List.cons_ne_nil next alone) hnext
      fun l hl => hall l (List.mem_cons_of_mem own hl)

theorem exists_of_goesOnAlone {physical after : List Text} (h : GoesOnAlone physical after) :
    ∃ state : Joining, state.pending? = some [] ∧ ofLines physical = after.foldl add state := by
  obtain ⟨before, alone, rfl, hbefore, hne, hall⟩ := h
  have hstart : (ofLines before).soFar = [] := by
    rw [soFar, hbefore]
    rfl
  refine ⟨alone.foldl add (ofLines before), pending?_foldl_alone hne hstart hall, ?_⟩
  rw [ofLines, List.foldl_append, List.foldl_append]
  rfl

theorem nil_mem_lines_of_goesOnAlone {physical after : List Text} (h : GoesOnAlone physical after)
    (hafter : ∀ own, after.head? = some own → dropSpacing own = []) :
    [] ∈ (ofLines physical).lines := by
  obtain ⟨state, hpending, heq⟩ := exists_of_goesOnAlone h
  rw [heq]
  rcases after with _ | ⟨own, after⟩
  · exact List.mem_append_right _ (by simp [hpending])
  · refine List.mem_append_left _ (mem_complete_foldl after ?_)
    have hown := hafter own rfl
    have hstep := step_add state own
    generalize state.add own = next at hstep
    cases hstep with
    | skip skips =>
      rw [skips.1] at hpending
      cases hpending
    | goOn _ hkept =>
      rw [hown] at hkept
      simp at hkept
    | finish => simp [soFar, hpending, hown]

theorem holdsStart_of_goesOnAlone {physical after : List Text} {own : Text} {c : CodePoint}
    (h : GoesOnAlone physical (own :: after)) (hc : (dropSpacing own).head? = some c)
    (hne : c ≠ backslash) : (ofLines physical).HoldsStart c := by
  obtain ⟨state, hpending, heq⟩ := exists_of_goesOnAlone h
  rw [heq]
  refine HoldsStart.addAll after ?_
  have hstep := step_add state own
  generalize state.add own = next at hstep
  cases hstep with
  | skip skips =>
    rw [skips.1] at hpending
    cases hpending
  | @goOn kept _ hkept =>
    refine ⟨state.soFar ++ kept, List.mem_append_right _ (by simp), ?_⟩
    rw [soFar, hpending]
    rcases kept with _ | ⟨d, kept⟩
    · rw [hkept] at hc
      cases hc
      exact absurd rfl hne
    · rw [hkept] at hc
      exact hc
  | finish =>
    refine ⟨state.soFar ++ dropSpacing own, by simp [lines], ?_⟩
    rw [soFar, hpending]
    exact hc

end Joining

theorem begun_of_mem_logicalLines {text line : Text} (h : line ∈ logicalLines text) :
    line = [] ∧ GoesOnAlone (physicalLines text) [] ∨ Begun (physicalLines text) line.head? := by
  have hopened := Joining.opened_ofLines (physicalLines text)
  rw [← Joining.lines_physicalLines] at h
  rcases List.mem_append.mp h with h | h
  · exact .inr (hopened.complete line h)
  · rcases hopened.pending line (by simpa using h) with h | ⟨-, h⟩
    · exact .inl h
    · exact .inr h

/-- No logical line begins with white space. One is empty exactly where a logical line begins with
physical lines that are backslashes alone, and behind them the text ends or comes a blank line; and
one looks like a comment exactly where a comment comes behind them. -/
theorem logicalLines_begin (text : Text) :
    (∀ line ∈ logicalLines text, ∀ c, line.head? = some c → isSpacing c = false)
      ∧ ([] ∈ logicalLines text ↔ ∃ after, GoesOnAlone (physicalLines text) after
        ∧ ∀ own, after.head? = some own → dropSpacing own = [])
      ∧ ((∃ line ∈ logicalLines text, IsComment line) ↔
        ∃ own after, GoesOnAlone (physicalLines text) (own :: after)
          ∧ IsComment (dropSpacing own)) := by
  refine ⟨fun line hline c hc => ?_, ⟨fun hnil => ?_, ?_⟩, ⟨?_, ?_⟩⟩
  · rcases begun_of_mem_logicalLines hline with ⟨rfl, -⟩ | ⟨d, hd, hplain⟩ | ⟨own, -, -, hfirst⟩
    · cases hc
    · cases hc.symm.trans hd
      exact hplain.not_spacing
    · exact isSpacing_of_head?_dropSpacing (hfirst.symm.trans hc)
  · rcases begun_of_mem_logicalLines hnil with
      ⟨-, halone⟩ | ⟨d, hd, -⟩ | ⟨own, after, halone, hfirst⟩
    · exact ⟨[], halone, nofun⟩
    · cases hd
    · refine ⟨own :: after, halone, fun own' hown => ?_⟩
      cases hown
      exact List.head?_eq_none_iff.mp hfirst.symm
  · rintro ⟨after, halone, hafter⟩
    rw [← Joining.lines_physicalLines]
    exact Joining.nil_mem_lines_of_goesOnAlone halone hafter
  · rintro ⟨line, hline, c, hc, hsign⟩
    rcases begun_of_mem_logicalLines hline with
      ⟨rfl, -⟩ | ⟨d, hd, hplain⟩ | ⟨own, after, halone, hfirst⟩
    · cases hc
    · cases hc.symm.trans hd
      exact absurd hsign (not_or.mpr hplain.not_comment)
    · exact ⟨own, after, halone, c, hfirst.symm.trans hc, hsign⟩
  · rintro ⟨own, after, halone, c, hc, hsign⟩
    have hne : c ≠ backslash := by
      rintro rfl
      revert hsign
      decide
    obtain ⟨line, hline, hstart⟩ := Joining.holdsStart_of_goesOnAlone halone hc hne
    rw [Joining.lines_physicalLines] at hline
    exact ⟨line, hline, c, hstart, hsign⟩

/-- A comment behind a backslash is a logical line and gives a property, and so does no line at
all. -/
theorem logicalLines_behind_backslash :
    logicalLines "\\\n#x=1" = [Text.ofString "#x=1"] ∧ IsComment "#x=1"
      ∧ readText "\\\n#x=1" = .ok (.ofPairs [("#x", "1")])
      ∧ logicalLines "\\" = [[]] ∧ readText "\\" = .ok (.ofPairs [([], [])]) := by
  have hcomment : logicalLines "\\\n#x=1" = [Text.ofString "#x=1"] := by decide
  have hempty : logicalLines "\\" = [[]] := by decide
  refine ⟨hcomment, ⟨'#', rfl, .inl rfl⟩, ?_, hempty, ?_⟩
  · rw [readText, hcomment]
    rfl
  · rw [readText, hempty]
    rfl

end PropertyLayers.Properties
