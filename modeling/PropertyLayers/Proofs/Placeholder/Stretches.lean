import Mathlib
import PropertyLayers.Environment.Basic
import PropertyLayers.Proofs.Placeholder.Form

/-!
# Where placeholders arise

What is resolved strictly is put together from stretches: what stands between two placeholders, in
the text or in a value that comes in, and the defaults. No placeholder is left in a stretch
(`Stretches.not_holds`), but two that come to stand side by side may make one, as the value `$` and
the text `{b}` behind it do (`resolve_adjacent`). Any placeholder in the result lies across such a
seam, so none arises where no stretch begins one, and then the result is resolved to itself
(`seamWithin_of_resolve`).
-/

namespace PropertyLayers

/-- What comes of these pieces, cut where a value or a default begins or ends. -/
inductive Stretches (scope : Scope) : List Piece → List Text → Prop
  | nil : Stretches scope [] [[]]
  | literal {c : CodePoint} {rest : List Piece} {first : Text} {out : List Text}
      (later : Stretches scope rest (first :: out)) :
      Stretches scope (.literal c :: rest) ((c :: first) :: out)
  | value {p : Placeholder} {value : Text} {rest : List Piece} {inner out : List Text}
      (held : scope.get? p.key = some value) (within : Stretches scope (pieces value) inner)
      (later : Stretches scope rest out) :
      Stretches scope (.placeholder p :: rest) ([] :: inner ++ out)
  | default {p : Placeholder} {value : Text} {rest : List Piece} {out : List Text}
      (missing : scope.get? p.key = none) (given : p.default? = some value)
      (later : Stretches scope rest out) :
      Stretches scope (.placeholder p :: rest) ([] :: value :: out)

/-- One of the stretches ends between the two places in what they make up. -/
def SeamWithin (stretches : List Text) (start stop : Nat) : Prop :=
  ∃ upper lower, stretches = upper ++ lower ∧ start < upper.flatten.length
    ∧ upper.flatten.length < stop

namespace Stretches

variable {scope : Scope} {ps : List Piece}

theorem exists_cons {stretches : List Text} (h : Stretches scope ps stretches) :
    ∃ first out, stretches = first :: out := by
  cases h <;> exact ⟨_, _, rfl⟩

/-- The stretches put together are what an expansion leaves that leaves no placeholder. -/
theorem of_leaves {out : List Piece} (h : Leaves scope ps out)
    (hl : ∀ piece ∈ out, piece.isLiteral) :
    ∃ stretches, Stretches scope ps stretches ∧ stretches.flatten = out.flatMap Piece.source := by
  induction h with
  | nil => exact ⟨_, .nil, rfl⟩
  | @literal c rest out _ ih =>
    obtain ⟨stretches, hs, he⟩ := ih fun piece hp => hl piece (List.mem_cons_of_mem _ hp)
    obtain ⟨first, more, rfl⟩ := hs.exists_cons
    refine ⟨_, .literal hs, ?_⟩
    rw [List.flatMap_cons, ← he]
    rfl
  | @value p value rest inner out held _ _ ihWithin ihLater =>
    obtain ⟨within, hw, hwe⟩ := ihWithin fun piece hp => hl piece (List.mem_append_left _ hp)
    obtain ⟨later, hs, hse⟩ := ihLater fun piece hp => hl piece (List.mem_append_right _ hp)
    refine ⟨_, .value held hw hs, ?_⟩
    rw [List.flatMap_append, ← hwe, ← hse]
    simp
  | @default p value rest out missing given _ ih =>
    obtain ⟨later, hs, hse⟩ := ih fun piece hp => hl piece (List.mem_append_right _ hp)
    refine ⟨_, .default missing given hs, ?_⟩
    rw [List.flatMap_append, flatMap_source_literals, ← hse]
    rfl
  | kept =>
    have := hl _ List.mem_cons_self
    simp [Piece.isLiteral] at this

/-- The first stretch of a text is its start, up to the first placeholder. -/
theorem head_isPrefix {t first : Text} {out : List Text}
    (h : Stretches scope (pieces t) (first :: out)) : first <+: t := by
  generalize hps : pieces t = ps at h
  generalize hss : first :: out = stretches at h
  induction h generalizing t first out with
  | nil =>
    cases hss
    exact List.nil_prefix
  | literal _ ih =>
    cases hss
    obtain ⟨later, rfl, hrest, -⟩ := pieces_of_literal hps
    exact List.cons_prefix_cons.mpr ⟨rfl, ih hrest.symm rfl⟩
  | value =>
    cases hss
    exact List.nil_prefix
  | default =>
    cases hss
    exact List.nil_prefix

theorem not_holds_nil : ¬ HoldsPlaceholder [] := by
  rintro ⟨p, -, hp⟩
  cases List.infix_nil.mp hp

/-- No stretch of a text holds a placeholder. -/
theorem not_holds {t : Text} {stretches : List Text} (h : Stretches scope (pieces t) stretches) :
    ∀ stretch ∈ stretches, ¬ HoldsPlaceholder stretch := by
  generalize hps : pieces t = ps at h
  induction h generalizing t with
  | nil =>
    rw [List.forall_mem_singleton]
    exact not_holds_nil
  | @literal c rest first out hlater ih =>
    obtain ⟨later, rfl, rfl, hnone⟩ := pieces_of_literal hps
    obtain ⟨hfirst, hout⟩ := List.forall_mem_cons.mp (ih rfl)
    refine List.forall_mem_cons.mpr ⟨fun hholds => ?_, hout⟩
    rcases holdsPlaceholder_cons.mp hholds with hstart | hholds
    · -- What is a placeholder at the start of the stretch is one at the start of the text.
      obtain ⟨⟨p, rest⟩, hp⟩ := Option.isSome_iff_exists.mp hstart
      obtain ⟨hwell, hsource⟩ := Placeholder.ofPrefix?_eq_some_iff.mp hp
      obtain ⟨more, rfl⟩ := head_isPrefix hlater
      have hfound := Placeholder.ofPrefix?_source_append hwell (rest ++ more)
      rw [← List.append_assoc, hsource, List.cons_append, hnone] at hfound
      cases hfound
    · exact hfirst hholds
  | value _ _ _ ihWithin ihLater =>
    obtain ⟨later, -, rfl⟩ := pieces_of_placeholder hps
    refine List.forall_mem_append.mpr ⟨List.forall_mem_cons.mpr ⟨not_holds_nil, ihWithin rfl⟩, ?_⟩
    exact ihLater rfl
  | default _ given _ ih =>
    obtain ⟨later, hp, rfl⟩ := pieces_of_placeholder hps
    obtain ⟨hwell, -⟩ := Placeholder.ofPrefix?_eq_some_iff.mp hp
    refine List.forall_mem_cons.mpr ⟨not_holds_nil, List.forall_mem_cons.mpr ⟨?_, ih rfl⟩⟩
    rintro ⟨q, -, hq⟩
    exact hwell.not_mem_default _ given (hq.subset q.closeBrace_mem_source)

end Stretches

/-- A part of what stretches make up lies in one of them or across a seam. -/
theorem seamWithin_or_infix {part : Text} (hp : part ≠ []) :
    ∀ {stretches : List Text} {before after : Text},
      before ++ part ++ after = stretches.flatten →
        SeamWithin stretches before.length (before.length + part.length)
          ∨ ∃ stretch ∈ stretches, part <:+: stretch
  | [], before, after, h => by
    have hnil : part = [] := by simp_all
    exact absurd hnil hp
  | stretch :: rest, before, after, h => by
    rw [List.flatten_cons] at h
    have hstretch : stretch <+: before ++ part ++ after := h ▸ List.prefix_append ..
    rcases Nat.lt_or_ge before.length stretch.length with hlt | hge
    · rcases Nat.lt_or_ge stretch.length (before ++ part).length with hcut | hwhole
      · rw [List.length_append] at hcut
        exact .inl ⟨[stretch], rest, rfl, by simpa using hlt, by simpa using hcut⟩
      · obtain ⟨more, hmore⟩ :=
          List.prefix_of_prefix_length_le (List.prefix_append ..) hstretch hwhole
        exact .inr ⟨stretch, List.mem_cons_self, before, more, hmore⟩
    · rw [List.append_assoc] at hstretch
      obtain ⟨later, rfl⟩ := List.prefix_of_prefix_length_le hstretch (List.prefix_append ..) hge
      simp only [List.append_assoc, List.append_cancel_left_eq] at h
      rw [← List.append_assoc] at h
      rcases seamWithin_or_infix hp h with ⟨upper, lower, rfl, hstart, hstop⟩ | ⟨s, hs, hin⟩
      · refine .inl ⟨stretch :: upper, lower, rfl, ?_, ?_⟩ <;>
          rw [List.flatten_cons, List.length_append, List.length_append] <;> omega
      · exact .inr ⟨s, List.mem_cons_of_mem stretch hs, hin⟩

/-- The stretch may be the start of a placeholder that is completed by what comes behind it. -/
def Opens (stretch : Text) : Prop :=
  [dollar, openBrace] <:+: stretch ∨ stretch.getLast? = some dollar

theorem exists_opens_of_holds {stretches : List Text} (h : HoldsPlaceholder stretches.flatten) :
    ∃ stretch ∈ stretches, Opens stretch := by
  obtain ⟨p, -, before, after, hp⟩ := h
  obtain ⟨tail, htail⟩ : ∃ tail, p.source = [dollar, openBrace] ++ tail := ⟨_, rfl⟩
  rw [htail, ← List.append_assoc, List.append_assoc _ tail] at hp
  rcases seamWithin_or_infix (List.cons_ne_nil dollar [openBrace]) hp with
    ⟨upper, lower, rfl, hstart, hstop⟩ | ⟨stretch, hm, hin⟩
  · -- The seam can only be the one between the two code points.
    have hlength : (before ++ [dollar]).length = upper.flatten.length := by
      simp only [List.length_append, List.length_cons, List.length_nil] at hstop ⊢
      omega
    have hsplit : (before ++ [dollar]) ++ (openBrace :: (tail ++ after)) =
        upper.flatten ++ lower.flatten := by
      rw [← List.flatten_append, ← hp]
      simp
    have hlast : upper.flatten.getLast? = some dollar := by
      rw [← (List.append_inj hsplit hlength).1, List.getLast?_concat]
    rw [List.getLast?_flatten] at hlast
    obtain ⟨stretch, hm, hd⟩ := List.exists_of_findSome?_eq_some hlast
    exact ⟨stretch, List.mem_append_left _ (List.mem_reverse.mp hm), .inr hd⟩
  · exact ⟨stretch, hm, .inl hin⟩

namespace Environment

variable {env : Environment}

theorem stretches_of_resolve {text result : Text} (hs : env.lenient = false)
    (h : env.resolve text = .ok result) :
    ∃ stretches, Stretches env.scope (pieces text) stretches ∧ stretches.flatten = result := by
  have hm := expand_modes env.scope [] text
  rw [resolve, hs] at h
  rw [h] at hm
  generalize expand env.scope true [] text = lenient at hm
  cases hm with
  | clear leaves literals => exact Stretches.of_leaves leaves literals

/-- Every placeholder of the text, and of each value that comes in, is replaced in a text that is
resolved strictly. A placeholder in what comes of it has arisen across a seam between two stretches,
which takes a stretch that opens one; and where there is none, resolving once more changes
nothing. -/
theorem seamWithin_of_resolve {text result : Text} (hs : env.lenient = false)
    (h : env.resolve text = .ok result) :
    ∃ stretches, Stretches env.scope (pieces text) stretches ∧ stretches.flatten = result
      ∧ (∀ before p after, Placeholder.WellFormed p → before ++ p.source ++ after = result →
          SeamWithin stretches before.length (before.length + p.source.length))
      ∧ ((∀ stretch ∈ stretches, ¬ Opens stretch) → ¬ HoldsPlaceholder result)
      ∧ (¬ HoldsPlaceholder result → env.resolve result = .ok result) := by
  obtain ⟨stretches, hstretches, rfl⟩ := stretches_of_resolve hs h
  refine ⟨stretches, hstretches, rfl, fun before p after hwell hp => ?_, fun hopens hholds => ?_,
    expand_of_not_holds env.lenient []⟩
  · rcases seamWithin_or_infix (List.cons_ne_nil _ _) hp with hseam | ⟨stretch, hm, hin⟩
    · exact hseam
    · exact absurd ⟨p, hwell, hin⟩ (hstretches.not_holds stretch hm)
  · obtain ⟨stretch, hm, hstretch⟩ := exists_opens_of_holds hholds
    exact hopens stretch hm hstretch

/-- A value that holds a placeholder with a default. -/
def nestedDefault : Environment := ⟨[⟨"base", .ofPairs [("a", "x$\x7bc:d\x7dy")]⟩], false⟩

theorem seamWithin_of_resolve_nestedDefault :
    nestedDefault.lenient = false
      ∧ nestedDefault.resolve "p$\x7ba\x7dq" = .ok (Text.ofString "pxdyq")
      ∧ ∃ stretches, Stretches nestedDefault.scope (pieces "p$\x7ba\x7dq") stretches
        ∧ stretches.flatten = Text.ofString "pxdyq"
        ∧ (∀ before p after, Placeholder.WellFormed p →
            before ++ p.source ++ after = Text.ofString "pxdyq" →
              SeamWithin stretches before.length (before.length + p.source.length))
        ∧ ((∀ stretch ∈ stretches, ¬ Opens stretch) → ¬ HoldsPlaceholder "pxdyq")
        ∧ (¬ HoldsPlaceholder "pxdyq" →
            nestedDefault.resolve "pxdyq" = .ok (Text.ofString "pxdyq")) := by
  have h : nestedDefault.resolve "p$\x7ba\x7dq" = .ok (Text.ofString "pxdyq") := by cbv
  exact ⟨rfl, h, seamWithin_of_resolve rfl h⟩

/-- An environment in which `a` is a dollar sign and `b` is `X`. -/
def dollarValue : Environment := ⟨[⟨"base", .ofPairs [("a", "$"), ("b", "X")]⟩], false⟩

/-- The value of `a` and the text behind it make up a placeholder for `b`, which stays. -/
theorem resolve_adjacent :
    dollarValue.lenient = false
      ∧ dollarValue.resolve "$\x7ba\x7d\x7bb\x7d" = .ok (Text.ofString "$\x7bb\x7d")
      ∧ HoldsPlaceholder "$\x7bb\x7d"
      ∧ dollarValue.resolve "$\x7bb\x7d" = .ok (Text.ofString "X")
      ∧ Text.ofString "X" ≠ Text.ofString "$\x7bb\x7d" := by
  have hfirst : dollarValue.resolve "$\x7ba\x7d\x7bb\x7d" =
      .ok (Text.ofString "$\x7bb\x7d") := by cbv
  have hagain : dollarValue.resolve "$\x7bb\x7d" = .ok (Text.ofString "X") := by cbv
  have hholds : HoldsPlaceholder "$\x7bb\x7d" :=
    ⟨⟨"b", none⟩, ⟨by decide, by decide, by simp⟩, List.infix_rfl⟩
  exact ⟨rfl, hfirst, hholds, hagain, by decide⟩

end Environment

end PropertyLayers
