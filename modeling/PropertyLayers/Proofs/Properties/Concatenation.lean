import PropertyLayers.Proofs.PropertyMap
import PropertyLayers.Proofs.Properties.Opening

/-!
# Texts behind one another

A line feed between two texts keeps their physical lines apart, but behind a carriage return, of
whose line ending it would be a part (`physicalLines_append`). Where a text ends in a physical line
with an even number of backslashes, no logical line goes on at its end (`pending?_of_endsWhole`). So
the logical lines of the two texts stand behind one another, and the properties of the second text
are put into those of the first (`readText_append`).
-/

namespace PropertyLayers.Properties

abbrev carriageReturn : CodePoint := '\r'

/-- What comes behind the text and a line feed has no part in its lines. -/
structure EndsWhole (text : Text) : Prop where
  not_return : text.getLast? ≠ some carriageReturn
  even : ∀ own, (physicalLines text).getLast? = some own → trailingBackslashes own % 2 = 0

/-! ## Lines -/

theorem PhysicalLines.append {front back : Text} {above below : List Text}
    (h : PhysicalLines front above) (hback : PhysicalLines back below)
    (hreturn : front.getLast? ≠ some carriageReturn) :
    PhysicalLines (front ++ lineFeed :: back) (above ++ below) := by
  induction h with
  | last unbroken => exact .ended .lf unbroken nofun hback
  | @ended line rest lines ending unbroken whole _ ih =>
    have htext : (line ++ (ending.text ++ rest)) ++ lineFeed :: back =
        line ++ (ending.text ++ (rest ++ lineFeed :: back)) := by simp
    have hending : ending.text ≠ [] := by cases ending <;> exact List.cons_ne_nil _ _
    rw [htext]
    rcases List.eq_nil_or_concat rest with rfl | ⟨rest, c, rfl⟩
    · refine .ended ending unbroken (fun hcr => ?_) (ih (by simp))
      -- The first text would end in this carriage return.
      subst hcr
      exact absurd (by simp [LineEnding.text, Text.ofString]) hreturn
    · refine .ended ending unbroken (fun hcr => ?_) (ih ?_)
      · rw [List.head?_append_of_ne_nil _ (by simp)]
        exact whole hcr
      · rwa [← List.append_assoc, List.getLast?_append_of_ne_nil _ (by simp)] at hreturn

theorem physicalLines_append {front : Text} (h : front.getLast? ≠ some carriageReturn)
    (back : Text) :
    physicalLines (front ++ lineFeed :: back) = physicalLines front ++ physicalLines back :=
  ((physicalLines_iff.mpr rfl).append (physicalLines_iff.mpr rfl) h).eq

theorem endsOpen_dropSpacing (line : Text) : endsOpen (dropSpacing line) = endsOpen line := by
  have hspacing : endsOpen (line.takeWhile isSpacing) = false := by
    rcases List.eq_nil_or_concat (line.takeWhile isSpacing) with hnil | ⟨front, c, hfront⟩
    · rw [hnil]
      rfl
    · rw [List.concat_eq_append] at hfront
      have hmem : c ∈ line.takeWhile isSpacing := hfront ▸ List.mem_append_right front (by simp)
      have hc : isSpacing c := List.all_eq_true.mp List.all_takeWhile c hmem
      rw [hfront]
      refine endsOpen_append_of_ne ?_
      rintro rfl
      cases hc
  rw [← endsOpen_append hspacing (dropSpacing line), dropSpacing, List.takeWhile_append_dropWhile]

namespace Joining

/-- Behind a line that does not go on, nothing is pending. -/
theorem pending?_add {state : Joining} {own : Text} (h : endsOpen own = false) :
    (state.add own).pending? = none := by
  unfold add
  dsimp only
  rw [endsOpen_dropSpacing, h]
  split_ifs with hskip hopen
  · exact hskip.1
  · exact hopen.elim
  · rfl

end Joining

theorem pending?_of_endsWhole {text : Text} (h : EndsWhole text) :
    (Joining.ofLines (physicalLines text)).pending? = none := by
  have heven := h.even
  rcases List.eq_nil_or_concat (physicalLines text) with hnil | ⟨before, own, hlines⟩
  · rw [hnil]
    rfl
  · rw [hlines, List.concat_eq_append] at heven ⊢
    rw [Joining.ofLines_append]
    refine Joining.pending?_add ?_
    simp [endsOpen, heven own (by simp)]

theorem logicalLines_append {front : Text} (h : EndsWhole front) (back : Text) :
    logicalLines (front ++ lineFeed :: back) = logicalLines front ++ logicalLines back := by
  have hrun : ∀ below, joinLines none (physicalLines front ++ below) =
      (Joining.ofLines (physicalLines front)).complete ++ joinLines none below := by
    intro below
    have := Joining.joinLines_append below (physicalLines front) Joining.even_start
    rwa [← Joining.ofLines, pending?_of_endsWhole h] at this
  have hfront := hrun []
  rw [List.append_nil] at hfront
  rw [logicalLines, physicalLines_append h.not_return, hrun, logicalLines, logicalLines, hfront]
  simp [joinLines]

/-! ## Properties -/

theorem addLine_update (m n : PropertyMap) (line : Text) :
    addLine (m.update n) line = (addLine n line).map m.update := by
  unfold addLine
  rcases readLine line with e | read
  · rfl
  · exact congrArg Except.ok (PropertyMap.insert_update m n read.key read.value)

theorem foldlM_addLine_update (m : PropertyMap) :
    ∀ (lines : List Text) (n : PropertyMap),
      lines.foldlM addLine (m.update n) = (lines.foldlM addLine n).map m.update
  | [], _ => rfl
  | line :: lines, n => by
    rw [List.foldlM_cons, List.foldlM_cons, addLine_update]
    rcases addLine n line with e | first
    · rfl
    · exact foldlM_addLine_update m lines first

theorem readText_eq_bind {front : Text} (h : EndsWhole front) (back : Text) :
    readText (front ++ lineFeed :: back) =
      (readText front).bind fun m => (readText back).map m.update := by
  rw [readText, logicalLines_append h, List.foldlM_append]
  refine bind_congr fun m => ?_
  exact foldlM_addLine_update m (logicalLines back) ∅

/-- The lines of two texts with a line feed between them stand behind one another where the first
ends whole. Then both texts together can be read where each can, and the second is put into the
first: a key stays where it first came and has the value that came last. -/
theorem readText_append (front back : Text) (h : EndsWhole front) :
    logicalLines (front ++ lineFeed :: back) = logicalLines front ++ logicalLines back
      ∧ ((∃ e, readText (front ++ lineFeed :: back) = .error e) ↔
          (∃ e, readText front = .error e) ∨ ∃ e, readText back = .error e)
      ∧ ∀ m n, readText front = .ok m → readText back = .ok n →
          readText (front ++ lineFeed :: back) = .ok (m.update n)
            ∧ (m.update n).keys = m.keys ++ n.keys.filter (fun key => key ∉ m.keys)
            ∧ ∀ key, (m.update n).get? key = (n.get? key).or (m.get? key) := by
  refine ⟨logicalLines_append h back, ?_, fun m n hm hn => ⟨?_, m.keys_update n, m.get?_update n⟩⟩
  · rw [readText_eq_bind h]
    rcases readText front with e | m <;> rcases readText back with e' | n <;>
      simp [Except.bind, Except.map]
  · rw [readText_eq_bind h, hm, hn]
    rfl

/-- The first text ends in two backslashes behind a line that goes on. -/
theorem readText_append_evenBackslashes :
    let front : Text := "a=1\nb=\\\n  \\\\"
    let back : Text := "c=3\na=2"
    EndsWhole front
      ∧ logicalLines (front ++ lineFeed :: back) = logicalLines front ++ logicalLines back
      ∧ readText (front ++ lineFeed :: back) =
        .ok (.ofPairs [("a", "2"), ("b", "\\"), ("c", "3")]) := by
  intro front back
  have hlast : (physicalLines front).getLast? = some (Text.ofString "  \\\\") := by decide
  have hwhole : EndsWhole front := by
    refine ⟨by decide, fun own hown => ?_⟩
    cases hlast.symm.trans hown
    decide
  have h := readText_append front back hwhole
  have hfrontLines : logicalLines front = [Text.ofString "a=1", "b=\\\\"] := by decide
  have hbackLines : logicalLines back = [Text.ofString "c=3", "a=2"] := by decide
  have hfront : readText front = .ok (.ofPairs [("a", "1"), ("b", "\\")]) := by
    rw [readText, hfrontLines]
    rfl
  have hback : readText back = .ok (.ofPairs [("c", "3"), ("a", "2")]) := by
    rw [readText, hbackLines]
    rfl
  have hupdate : PropertyMap.update (.ofPairs [("a", "1"), ("b", "\\")])
      (.ofPairs [("c", "3"), ("a", "2")]) = .ofPairs [("a", "2"), ("b", "\\"), ("c", "3")] := by
    decide
  exact ⟨hwhole, h.1, hupdate ▸ (h.2.2 _ _ hfront hback).1⟩

end PropertyLayers.Properties
