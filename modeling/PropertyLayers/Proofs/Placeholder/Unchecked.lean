import Mathlib.Logic.Relation
import PropertyLayers.Environment.Basic
import PropertyLayers.Proofs.Placeholder.Form

/-!
# Expansion without a check on keys

The unchecked expansion steps into the value of every key it meets, also of one whose value is
being expanded, so it need not end; it is cut off at a depth of nested values. Where it ends, the
checked expansion ends in the same way, and a key is found to be circular exactly where the
unchecked expansion has no end (`Environment.resolve_exact`): the value of that key leads back to
the key. The unchecked expansion ends within as many nested values as there are keys, if at all.
-/

namespace PropertyLayers

abbrev Expansion := Except UnexpandedPlaceholder Text

/-- What comes in place of a placeholder in the text, where `within` tells what a value comes to. -/
def Placeholder.replacement? (scope : Scope) (lenient : Bool) (within : Text → Option Expansion)
    (text : Text) (p : Placeholder) : Option Expansion :=
  match scope.get? p.key with
  | some value => within value
  | none =>
    match p.default? with
    | some value => some (.ok value)
    | none => some (if lenient then .ok p.source else .error ⟨text, p.key, .unresolvable⟩)

def uncheckedPieces (scope : Scope) (lenient : Bool) (within : Text → Option Expansion)
    (text : Text) : List Piece → Option Expansion
  | [] => some (.ok [])
  | .literal c :: rest =>
    (uncheckedPieces scope lenient within text rest).map (Except.map (c :: ·))
  | .placeholder p :: rest =>
    match p.replacement? scope lenient within text with
    | none => none
    | some (.error e) => some (.error e)
    | some (.ok front) =>
      (uncheckedPieces scope lenient within text rest).map (Except.map (front ++ ·))

/-- The text with every placeholder expanded, whatever keys are being expanded already; `none`
where values are nested deeper than `depth`. -/
def unchecked (scope : Scope) (lenient : Bool) : Nat → Text → Option Expansion
  | 0, _ => none
  | depth + 1, text =>
    uncheckedPieces scope lenient (unchecked scope lenient depth) text (pieces text)

/-- The unchecked expansion of the text is finite, and this is what comes of it. -/
def EndsAs (scope : Scope) (lenient : Bool) (text : Text) (outcome : Expansion) : Prop :=
  ∃ depth, unchecked scope lenient depth text = some outcome

def Circular (outcome : Expansion) : Prop := ∃ e, outcome = .error e ∧ e.fault = .circular

/-- The value of the first key holds a placeholder for the second. -/
def Scope.RefersTo (scope : Scope) (key other : Text) : Prop :=
  ∃ value, scope.get? key = some value ∧ ∃ p, .placeholder p ∈ pieces value ∧ p.key = other

theorem not_circular_ok (text : Text) : ¬ Circular (.ok text) := by
  rintro ⟨e, he, -⟩
  cases he

theorem circular_map {outcome : Expansion} {f : Text → Text} :
    Circular (outcome.map f) ↔ Circular outcome := by
  rcases outcome with e | text
  · exact Iff.rfl
  · exact iff_of_false (not_circular_ok _) (not_circular_ok _)

section Depth

variable {scope : Scope} {lenient : Bool}

theorem uncheckedPieces_mono {within within' : Text → Option Expansion}
    (h : ∀ value outcome, within value = some outcome → within' value = some outcome)
    {text : Text} :
    ∀ {ps : List Piece} {outcome : Expansion},
      uncheckedPieces scope lenient within text ps = some outcome →
        uncheckedPieces scope lenient within' text ps = some outcome
  | [], _, ho => ho
  | .literal c :: rest, _, ho => by
    obtain ⟨later, hl, rfl⟩ := Option.map_eq_some_iff.mp ho
    rw [uncheckedPieces, uncheckedPieces_mono h hl, Option.map_some]
  | .placeholder p :: rest, outcome, ho => by
    have hr : ∀ o, p.replacement? scope lenient within text = some o →
        p.replacement? scope lenient within' text = some o := by
      intro o hp
      unfold Placeholder.replacement? at hp ⊢
      split at hp
      · exact h _ _ hp
      · exact hp
    rw [uncheckedPieces] at ho ⊢
    rcases hp : p.replacement? scope lenient within text with _ | _ | front <;> rw [hp] at ho
    · cases ho
    · rw [hr _ hp]
      exact ho
    · obtain ⟨later, hl, rfl⟩ := Option.map_eq_some_iff.mp ho
      simp only [hr _ hp, uncheckedPieces_mono h hl, Option.map_some]

theorem unchecked_mono :
    ∀ {n m : Nat} {text : Text} {outcome : Expansion}, n ≤ m →
      unchecked scope lenient n text = some outcome →
        unchecked scope lenient m text = some outcome
  | 0, _, _, _, _, ho => by cases ho
  | _ + 1, 0, _, _, h, _ => by omega
  | n + 1, m + 1, text, outcome, h, ho =>
    uncheckedPieces_mono (fun _ _ => unchecked_mono (by omega)) ho

theorem EndsAs.eq {text : Text} {a b : Expansion} (ha : EndsAs scope lenient text a)
    (hb : EndsAs scope lenient text b) : a = b := by
  obtain ⟨n, hn⟩ := ha
  obtain ⟨m, hm⟩ := hb
  have hn := unchecked_mono (Nat.le_max_left n m) hn
  have hm := unchecked_mono (Nat.le_max_right n m) hm
  rw [hn] at hm
  exact Option.some.inj hm

end Depth

section Checked

variable {scope : Scope} {lenient : Bool}

/-- Where no key is met again, the checked expansion takes the steps of the unchecked one, and
values are nested no deeper than there are keys to visit. -/
theorem uncheckedPieces_of_expandPieces (visiting : List Text) (text : Text) (ps : List Piece)
    (hc : ¬ Circular (expandPieces scope lenient visiting text ps)) :
    uncheckedPieces scope lenient (unchecked scope lenient (scope.unvisited visiting)) text ps =
      some (expandPieces scope lenient visiting text ps) := by
  induction visiting, text, ps using expandPieces.induct scope lenient
    (fun visiting text => ¬ Circular (expand scope lenient visiting text) →
      unchecked scope lenient (scope.unvisited visiting + 1) text =
        some (expand scope lenient visiting text)) with
  | case1 visiting text ih hc =>
    rw [expand] at hc ⊢
    exact ih hc
  | case2 visiting text =>
    rw [expandPieces]
    rfl
  | case3 visiting text c rest ih =>
    rw [expandPieces, circular_map] at hc
    rw [expandPieces, uncheckedPieces, ih hc, Option.map_some]
  | case4 visiting text p rest hv =>
    rw [expandPieces_circular hv] at hc
    exact absurd ⟨_, rfl, rfl⟩ hc
  | case5 visiting text p rest hv v hk ihv ih =>
    have hlt := Scope.unvisited_cons_lt (Scope.mem_keys_of_get? hk) hv
    rw [expandPieces_value hv hk] at hc ⊢
    rcases hw : expand scope lenient (p.key :: visiting) v with e | inner <;> rw [hw] at hc ihv
    · have hwithin := unchecked_mono (Nat.succ_le_of_lt hlt) (ihv hc)
      simp only [uncheckedPieces, Placeholder.replacement?, hk, hwithin]
      rfl
    · have hwithin := unchecked_mono (Nat.succ_le_of_lt hlt) (ihv (not_circular_ok inner))
      have hrest := ih (mt circular_map.mpr hc)
      simp only [uncheckedPieces, Placeholder.replacement?, hk, hwithin, hrest]
      rfl
  | case6 visiting text p rest hv hk v hd ih =>
    rw [expandPieces_missing hv hk, hd] at hc ⊢
    have hrest := ih (mt circular_map.mpr hc)
    simp only [uncheckedPieces, Placeholder.replacement?, hk, hd, hrest, Option.map_some]
  | case7 visiting text p rest hv hk hd hl ih =>
    subst hl
    rw [expandPieces_missing hv hk, hd] at hc ⊢
    have hrest := ih (mt circular_map.mpr hc)
    simp only [uncheckedPieces, Placeholder.replacement?, hk, hd, if_true, hrest, Option.map_some]
  | case8 visiting text p rest hv hk hd hl =>
    rw [expandPieces_missing hv hk, hd]
    simp only [uncheckedPieces, Placeholder.replacement?, hk, hd, hl]
    rfl

theorem unchecked_of_expand {visiting : List Text} {text : Text}
    (hc : ¬ Circular (expand scope lenient visiting text)) :
    unchecked scope lenient (scope.unvisited visiting + 1) text =
      some (expand scope lenient visiting text) := by
  rw [expand] at hc ⊢
  exact uncheckedPieces_of_expandPieces visiting text (pieces text) hc

/-- The values of these keys have no end within the depth. -/
def EndlessWithin (scope : Scope) (lenient : Bool) (depth : Nat) (keys : List Text) : Prop :=
  ∀ key ∈ keys, ∃ value, scope.get? key = some value ∧ unchecked scope lenient depth value = none

theorem EndlessWithin.anti {n m : Nat} {keys : List Text} (h : EndlessWithin scope lenient m keys)
    (hnm : n ≤ m) : EndlessWithin scope lenient n keys := by
  intro key hkey
  obtain ⟨value, hk, hv⟩ := h key hkey
  refine ⟨value, hk, ?_⟩
  rcases hn : unchecked scope lenient n value with _ | outcome
  · rfl
  · rw [unchecked_mono hnm hn] at hv
    cases hv

-- The value comes up inside itself again, so it has no end within a depth if it has none within
-- the depth below: the induction is on the depth.
theorem unchecked_eq_none_of_step {visiting : List Text} {key value : Text} {depth : Nat}
    (hk : scope.get? key = some value) (hv : EndlessWithin scope lenient depth visiting)
    (step : ∀ n, EndlessWithin scope lenient n (key :: visiting) →
      unchecked scope lenient (n + 1) value = none) :
    ∀ {n : Nat}, n ≤ depth → unchecked scope lenient n value = none
  | 0, _ => rfl
  | n + 1, h => by
    have ih := unchecked_eq_none_of_step hk hv step (Nat.le_of_succ_le h)
    refine step n fun other ho => ?_
    rcases List.mem_cons.mp ho with rfl | ho
    · exact ⟨value, hk, ih⟩
    · exact hv.anti (Nat.le_of_succ_le h) other ho

/-- Where a key is met again, the unchecked expansion goes through the same values once more. -/
theorem uncheckedPieces_eq_none_of_circular (visiting : List Text) (text : Text) (ps : List Piece)
    (hc : Circular (expandPieces scope lenient visiting text ps)) :
    ∀ depth, EndlessWithin scope lenient depth visiting →
      uncheckedPieces scope lenient (unchecked scope lenient depth) text ps = none := by
  induction visiting, text, ps using expandPieces.induct scope lenient
    (fun visiting text => Circular (expand scope lenient visiting text) →
      ∀ depth, EndlessWithin scope lenient depth visiting →
        unchecked scope lenient (depth + 1) text = none) with
  | case1 visiting text ih hc depth hd =>
    rw [expand] at hc
    exact ih hc depth hd
  | case2 visiting text =>
    rw [expandPieces] at hc
    exact absurd hc (not_circular_ok [])
  | case3 visiting text c rest ih =>
    rw [expandPieces, circular_map] at hc
    intro depth hd
    rw [uncheckedPieces, ih hc depth hd, Option.map_none]
  | case4 visiting text p rest hv =>
    intro depth hd
    obtain ⟨value, hk, hn⟩ := hd p.key hv
    simp only [uncheckedPieces, Placeholder.replacement?, hk, hn]
  | case5 visiting text p rest hv v hk ihv ih =>
    rw [expandPieces_value hv hk] at hc
    intro depth hd
    rcases hw : expand scope lenient (p.key :: visiting) v with e | inner <;> rw [hw] at hc ihv
    · -- the circular key is found within the value, whose own key is one of those visited there
      have hn := unchecked_eq_none_of_step hk hd (ihv hc) (Nat.le_refl depth)
      simp only [uncheckedPieces, Placeholder.replacement?, hk, hn]
    · -- the value ends well, so the circular key is found behind it
      have hrest := ih (circular_map.mp hc) depth hd
      have hv : EndsAs scope lenient v (.ok inner) := by
        rw [← hw]
        exact ⟨_, unchecked_of_expand (by rw [hw]; exact not_circular_ok inner)⟩
      rcases hn : unchecked scope lenient depth v with _ | outcome
      · simp only [uncheckedPieces, Placeholder.replacement?, hk, hn]
      · cases EndsAs.eq ⟨depth, hn⟩ hv
        simp only [uncheckedPieces, Placeholder.replacement?, hk, hn, hrest, Option.map_none]
  | case6 visiting text p rest hv hk v hd ih =>
    rw [expandPieces_missing hv hk, hd] at hc
    intro depth hn
    have hrest := ih (circular_map.mp hc) depth hn
    simp only [uncheckedPieces, Placeholder.replacement?, hk, hd, hrest, Option.map_none]
  | case7 visiting text p rest hv hk hd hl ih =>
    subst hl
    rw [expandPieces_missing hv hk, hd] at hc
    intro depth hn
    have hrest := ih (circular_map.mp hc) depth hn
    simp only [uncheckedPieces, Placeholder.replacement?, hk, hd, if_true, hrest, Option.map_none]
  | case8 visiting text p rest hv hk hd hl =>
    rw [expandPieces_missing hv hk, hd] at hc
    simp only [hl] at hc
    obtain ⟨e, he, hf⟩ := hc
    cases he
    cases hf

theorem unchecked_eq_none_of_circular {visiting : List Text} {text : Text}
    (hc : Circular (expand scope lenient visiting text)) {depth : Nat}
    (hd : EndlessWithin scope lenient depth visiting) :
    unchecked scope lenient (depth + 1) text = none := by
  rw [expand] at hc
  exact uncheckedPieces_eq_none_of_circular visiting text (pieces text) hc depth hd

end Checked

section Cycles

variable {scope : Scope} {lenient : Bool}

/-- The key of a placeholder among these pieces leads to this key. -/
def LeadsTo (scope : Scope) (ps : List Piece) (key : Text) : Prop :=
  ∃ p, .placeholder p ∈ ps ∧ Relation.ReflTransGen scope.RefersTo p.key key

theorem LeadsTo.cons {piece : Piece} {ps : List Piece} {key : Text} (h : LeadsTo scope ps key) :
    LeadsTo scope (piece :: ps) key := by
  obtain ⟨p, hp, hkey⟩ := h
  exact ⟨p, List.mem_cons_of_mem _ hp, hkey⟩

theorem LeadsTo.of_value {key value other : Text} (hk : scope.get? key = some value)
    (h : LeadsTo scope (pieces value) other) : Relation.TransGen scope.RefersTo key other := by
  obtain ⟨p, hp, hother⟩ := h
  exact .head' ⟨value, hk, p, hp, rfl⟩ hother

-- A key that is visited at the start may be circular without a cycle; any other has been visited
-- on the way, so that a path from it leads here and on to it.
theorem cycle_of_expandPieces (visiting : List Text) (text : Text) (ps : List Piece)
    {e : UnexpandedPlaceholder} (he : expandPieces scope lenient visiting text ps = .error e)
    (hf : e.fault = .circular) :
    LeadsTo scope ps e.key
      ∧ (e.key ∈ visiting ∨ Relation.TransGen scope.RefersTo e.key e.key) := by
  have later : ∀ {outcome : Expansion} {f : Text → Text}, outcome.map f = .error e →
      outcome = .error e := by
    intro outcome f h
    cases outcome <;> cases h
    rfl
  induction visiting, text, ps using expandPieces.induct scope lenient
    (fun visiting text => expand scope lenient visiting text = .error e →
      LeadsTo scope (pieces text) e.key
        ∧ (e.key ∈ visiting ∨ Relation.TransGen scope.RefersTo e.key e.key)) with
  | case1 visiting text ih he =>
    rw [expand] at he
    exact ih he
  | case2 visiting text =>
    rw [expandPieces] at he
    cases he
  | case3 visiting text c rest ih =>
    rw [expandPieces] at he
    obtain ⟨hleads, hcycle⟩ := ih (later he)
    exact ⟨hleads.cons, hcycle⟩
  | case4 visiting text p rest hv =>
    rw [expandPieces_circular hv] at he
    cases he
    exact ⟨⟨p, List.mem_cons_self, .refl⟩, .inl hv⟩
  | case5 visiting text p rest hv v hk ihv ih =>
    rw [expandPieces_value hv hk] at he
    rcases hw : expand scope lenient (p.key :: visiting) v with e' | inner <;> rw [hw] at he
    · cases he
      obtain ⟨hleads, hcycle⟩ := ihv hw
      have hpath := hleads.of_value hk
      refine ⟨⟨p, List.mem_cons_self, hpath.to_reflTransGen⟩, ?_⟩
      rcases hcycle with hmem | hcycle
      · rcases List.mem_cons.mp hmem with heq | hmem
        · rw [← heq] at hpath
          exact .inr hpath
        · exact .inl hmem
      · exact .inr hcycle
    · obtain ⟨hleads, hcycle⟩ := ih (later he)
      exact ⟨hleads.cons, hcycle⟩
  | case6 visiting text p rest hv hk v hd ih =>
    rw [expandPieces_missing hv hk, hd] at he
    obtain ⟨hleads, hcycle⟩ := ih (later he)
    exact ⟨hleads.cons, hcycle⟩
  | case7 visiting text p rest hv hk hd hl ih =>
    subst hl
    rw [expandPieces_missing hv hk, hd] at he
    obtain ⟨hleads, hcycle⟩ := ih (later he)
    exact ⟨hleads.cons, hcycle⟩
  | case8 visiting text p rest hv hk hd hl =>
    rw [expandPieces_missing hv hk, hd] at he
    simp only [hl] at he
    cases he
    cases hf

theorem cycle_of_expand {visiting : List Text} {text : Text} {e : UnexpandedPlaceholder}
    (he : expand scope lenient visiting text = .error e) (hf : e.fault = .circular) :
    LeadsTo scope (pieces text) e.key
      ∧ (e.key ∈ visiting ∨ Relation.TransGen scope.RefersTo e.key e.key) := by
  rw [expand] at he
  exact cycle_of_expandPieces visiting text (pieces text) he hf

end Cycles

/-- How the outcome of a checked expansion of the text stands to the unchecked one. -/
structure ExactOutcome (scope : Scope) (lenient : Bool) (text : Text) (outcome : Expansion) :
    Prop where
  returned : ∀ result, outcome = .ok result ↔ EndsAs scope lenient text (.ok result)
  unresolvable : ∀ e, e.fault = .unresolvable →
    (outcome = .error e ↔ EndsAs scope lenient text (.error e))
  circular : Circular outcome ↔ ∀ o, ¬ EndsAs scope lenient text o
  /-- A key is never called circular for being met often. -/
  cycle : ∀ e, outcome = .error e → e.fault = .circular →
    Relation.TransGen scope.RefersTo e.key e.key
  /-- What ends does so within as many nested values as there are keys. -/
  nested : ∀ o, EndsAs scope lenient text o →
    unchecked scope lenient (scope.keys.length + 1) text = some o

theorem exactOutcome_expand {scope : Scope} {lenient : Bool} {visiting : List Text} {text : Text}
    (hendless : Circular (expand scope lenient visiting text) →
      ∀ depth, unchecked scope lenient depth text = none)
    (hcycle : ∀ e, expand scope lenient visiting text = .error e → e.fault = .circular →
      Relation.TransGen scope.RefersTo e.key e.key) :
    ExactOutcome scope lenient text (expand scope lenient visiting text) := by
  have hdepth : scope.unvisited visiting + 1 ≤ scope.keys.length + 1 :=
    Nat.succ_le_succ (List.length_filter_le _ _)
  have hends : ¬ Circular (expand scope lenient visiting text) →
      unchecked scope lenient (scope.keys.length + 1) text =
        some (expand scope lenient visiting text) :=
    fun hc => unchecked_mono hdepth (unchecked_of_expand hc)
  have hnot : ∀ {o}, EndsAs scope lenient text o →
      ¬ Circular (expand scope lenient visiting text) := by
    rintro o ⟨depth, ho⟩ hc
    rw [hendless hc depth] at ho
    cases ho
  have hsame : ∀ {o}, EndsAs scope lenient text o →
      expand scope lenient visiting text = o :=
    fun ho => EndsAs.eq ⟨_, hends (hnot ho)⟩ ho
  have hiff : ∀ {o}, ¬ Circular o →
      (expand scope lenient visiting text = o ↔ EndsAs scope lenient text o) := by
    refine fun hc => ⟨fun ho => ?_, hsame⟩
    subst ho
    exact ⟨_, hends hc⟩
  refine ⟨fun result => hiff (not_circular_ok result), fun e he => hiff ?_, ?_, hcycle, ?_⟩
  · rintro ⟨e', h, hf⟩
    cases h
    rw [he] at hf
    cases hf
  · exact ⟨fun hc o ho => hnot ho hc,
      fun h => Classical.byContradiction fun hc => h _ ⟨_, hends hc⟩⟩
  · intro o ho
    rw [hends (hnot ho), hsame ho]

namespace Environment

/-- An environment resolves a text, and the value of a key, to what the unchecked expansion comes
to, and calls a key circular exactly where that is endless. A default may be put in as it stands. -/
theorem resolve_exact (env : Environment) :
    (∀ text, ExactOutcome env.scope env.lenient text (env.resolve text))
    ∧ (∀ key, match env.rawProperty? key with
      | none => env.property? key = .ok none
      | some value => ∃ outcome, env.property? key = outcome.map some
        ∧ ExactOutcome env.scope env.lenient value outcome)
    ∧ ∀ text p value, .placeholder p ∈ pieces text → p.default? = some value →
      ∀ visiting, expand env.scope env.lenient visiting value = .ok value := by
  refine ⟨?_, ?_, fun text p value hp hd visiting => expand_default hp hd _ _ visiting⟩
  · intro text
    refine exactOutcome_expand (fun hc depth => ?_) fun e he hf => ?_
    · rcases depth with _ | depth
      · rfl
      · exact unchecked_eq_none_of_circular hc (by simp [EndlessWithin])
    · exact (cycle_of_expand he hf).2.resolve_left List.not_mem_nil
  · intro key
    rcases hk : env.rawProperty? key with _ | value
    · simp only [property?, hk]
    · refine ⟨expand env.scope env.lenient [key] value, by simp only [property?, hk], ?_⟩
      refine exactOutcome_expand (fun hc depth => ?_) fun e he hf => ?_
      · have hstart : EndlessWithin env.scope env.lenient depth [] := by simp [EndlessWithin]
        exact unchecked_eq_none_of_step hk hstart (fun n => unchecked_eq_none_of_circular hc)
          (Nat.le_refl depth)
      · obtain ⟨hleads, hmem | hcycle⟩ := cycle_of_expand he hf
        · have hpath := hleads.of_value hk
          rwa [List.mem_singleton.mp hmem] at hpath ⊢
        · exact hcycle

/-- Each of the four times `b` is met it is on another branch. -/
example :
    Environment.resolve ⟨[⟨"s", .ofPairs [("a", "$\x7bb\x7d$\x7bb\x7d"), ("b", "x")]⟩], false⟩
      "$\x7ba\x7d-$\x7ba\x7d" = .ok (Text.ofString "xx-xx") := by
  cbv

end Environment

end PropertyLayers
