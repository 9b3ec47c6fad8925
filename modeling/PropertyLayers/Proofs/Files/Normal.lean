import Mathlib.Data.List.Basic
import PropertyLayers.Files.Path

/-!
# Normal paths

A walk along the segments of a path climbs some way above its start and then goes down along some
names, and this is all that is left of the path in its normal form: from the start of a relative
path (`foldl_goOn_relative`), and from the root without the climb (`foldl_goOn_anchored`). A path
that is normal stays as it is (`normal_of_isNormal`), and so does its text when it is read again
(`ofText_toText`). Said of the text, `NormalText` is what a normal path comes to
(`normalText_toText`).
-/

namespace PropertyLayers.FilePath

/-- How far a walk has climbed above its start, and the names along which it has gone down. -/
structure Position where
  above : Nat
  names : List Text

namespace Position

def start : Position := ⟨0, []⟩

/-- One segment further. -/
def goOn (p : Position) (segment : Text) : Position :=
  if segment ≠ upward then { p with names := p.names ++ [segment] }
  else if p.names = [] then { p with above := p.above + 1 }
  else { p with names := p.names.dropLast }

def walk (segments : List Text) : Position := segments.foldl goOn start

/-- The segments that lead to a position. -/
def segments (p : Position) : List Text := List.replicate p.above upward ++ p.names

variable {p : Position} {segment : Text}

theorem goOn_name (h : segment ≠ upward) : p.goOn segment = ⟨p.above, p.names ++ [segment]⟩ := by
  rw [goOn, if_pos h]

theorem goOn_upward_of_nil (h : p.names = []) : p.goOn upward = ⟨p.above + 1, p.names⟩ := by
  rw [goOn, if_neg (not_not_intro rfl), if_pos h]

theorem goOn_upward_of_ne_nil (h : p.names ≠ []) :
    p.goOn upward = ⟨p.above, p.names.dropLast⟩ := by
  rw [goOn, if_neg (not_not_intro rfl), if_neg h]

theorem upward_not_mem_goOn (h : upward ∉ p.names) (segment : Text) :
    upward ∉ (p.goOn segment).names := by
  unfold goOn
  split
  · rename_i hs
    simp [h, Ne.symm hs]
  · split
    · exact h
    · exact fun hm => h (List.dropLast_subset _ hm)

theorem mem_names_goOn {name : Text} (h : name ∈ (p.goOn segment).names) :
    name ∈ p.names ∨ name = segment := by
  unfold goOn at h
  split at h
  · simpa using h
  · split at h
    · exact .inl h
    · exact .inl (List.dropLast_subset _ h)

theorem upward_not_mem_foldl :
    ∀ (segments : List Text) {p : Position}, upward ∉ p.names →
      upward ∉ (segments.foldl goOn p).names
  | [], _, h => h
  | segment :: rest, _, h => upward_not_mem_foldl rest (upward_not_mem_goOn h segment)

theorem mem_names_foldl {name : Text} :
    ∀ (segments : List Text) {p : Position}, name ∈ (segments.foldl goOn p).names →
      name ∈ p.names ∨ name ∈ segments
  | [], _, h => .inl h
  | segment :: rest, p, h => by
    rcases mem_names_foldl rest h with h | h
    · rcases mem_names_goOn h with h | rfl
      · exact .inl h
      · exact .inr List.mem_cons_self
    · exact .inr (List.mem_cons_of_mem segment h)

/-- From the start of a relative path the way is that to the position. -/
theorem goOn_relative (h : upward ∉ p.names) (segment : Text) :
    FilePath.goOn false p.segments segment = (p.goOn segment).segments := by
  by_cases hs : segment = upward
  · subst hs
    by_cases hn : p.names = []
    · rw [goOn_upward_of_nil hn, FilePath.goOn]
      simp only [segments, hn, List.append_nil]
      rcases ha : p.above with _ | n
      · simp
      · simp [List.replicate_succ']
    · have hlast : p.names.getLast? ≠ some upward := fun hl => h (List.mem_of_getLast? hl)
      rw [goOn_upward_of_ne_nil hn, FilePath.goOn]
      simp [segments, hn, hlast, List.dropLast_append_of_ne_nil]
  · rw [goOn_name hs, FilePath.goOn]
    simp [segments, hs]

/-- From the root the way is that along the names. -/
theorem goOn_anchored (h : upward ∉ p.names) (segment : Text) :
    FilePath.goOn true p.names segment = (p.goOn segment).names := by
  by_cases hs : segment = upward
  · subst hs
    by_cases hn : p.names = []
    · rw [goOn_upward_of_nil hn, FilePath.goOn]
      simp [hn]
    · have hlast : p.names.getLast? ≠ some upward := fun hl => h (List.mem_of_getLast? hl)
      rw [goOn_upward_of_ne_nil hn, FilePath.goOn]
      simp [hn, hlast]
  · rw [goOn_name hs, FilePath.goOn]
    simp [hs]

theorem foldl_goOn_relative :
    ∀ (segs : List Text) {p : Position}, upward ∉ p.names →
      segs.foldl (FilePath.goOn false) p.segments = (segs.foldl goOn p).segments
  | [], _, _ => rfl
  | segment :: rest, p, h => by
    rw [List.foldl_cons, goOn_relative h,
      foldl_goOn_relative rest (upward_not_mem_goOn h segment)]
    rfl

theorem foldl_goOn_anchored :
    ∀ (segs : List Text) {p : Position}, upward ∉ p.names →
      segs.foldl (FilePath.goOn true) p.names = (segs.foldl goOn p).names
  | [], _, _ => rfl
  | segment :: rest, p, h => by
    rw [List.foldl_cons, goOn_anchored h,
      foldl_goOn_anchored rest (upward_not_mem_goOn h segment)]
    rfl

/-- The way to a position leads to it. -/
theorem walk_segments (h : upward ∉ p.names) : walk p.segments = p := by
  have hup : ∀ n m, (List.replicate n upward).foldl goOn ⟨m, []⟩ = ⟨m + n, []⟩ := by
    intro n
    induction n with
    | zero => exact fun _ => rfl
    | succ n ih =>
      intro m
      rw [List.replicate_succ, List.foldl_cons, goOn_upward_of_nil rfl, ih]
      simp [Nat.add_comm, Nat.add_left_comm]
  have hdown : ∀ (names before : List Text) (n : Nat), upward ∉ names →
      names.foldl goOn ⟨n, before⟩ = ⟨n, before ++ names⟩ := by
    intro names
    induction names with
    | nil => simp
    | cons name rest ih =>
      intro before n hn
      obtain ⟨hname, hrest⟩ := not_or.mp (mt List.mem_cons.mpr hn)
      rw [List.foldl_cons, goOn_name (Ne.symm hname), ih _ _ hrest]
      simp
  rw [walk, segments, List.foldl_append, start, hup, hdown _ _ _ h]
  simp

end Position

/-! ## Normal paths and their texts -/

/-- What can stand between two slashes and count. -/
def IsWhole (segment : Text) : Prop := isSegment segment ∧ slash ∉ segment

theorem IsWhole.ne_nil {segment : Text} (h : IsWhole segment) : segment ≠ [] := by
  rintro rfl
  exact absurd h.1 (by decide)

theorem isWhole_upward : IsWhole upward := by
  constructor <;> decide

theorem isWhole_of_mem_ofText {t segment : Text} (h : segment ∈ (ofText t).segments) :
    IsWhole segment := by
  obtain ⟨hm, hs⟩ := List.mem_filter.mp h
  exact ⟨hs, Text.not_mem_of_mem_split hm⟩

/-- The path climbs at its start alone, and not at all if it is anchored. -/
structure IsNormal (path : FilePath) : Prop where
  whole : ∀ segment ∈ path.segments, IsWhole segment
  position : ∃ p : Position, upward ∉ p.names ∧ path.segments = p.segments
    ∧ (path.anchor ≠ .relative → p.above = 0)

theorem segments_normal (path : FilePath) :
    path.normal.segments =
      if path.anchor = .relative then (Position.walk path.segments).segments
      else (Position.walk path.segments).names := by
  have hstart : upward ∉ Position.start.names := by simp [Position.start]
  by_cases ha : path.anchor = .relative
  · rw [if_pos ha, Position.walk, ← Position.foldl_goOn_relative _ hstart]
    simp [normal, ha, Position.start, Position.segments]
  · rw [if_neg ha, Position.walk, ← Position.foldl_goOn_anchored _ hstart]
    simp [normal, ha, Position.start]

theorem upward_not_mem_walk (segments : List Text) :
    upward ∉ (Position.walk segments).names :=
  Position.upward_not_mem_foldl segments (by simp [Position.start])

theorem isNormal_normal {path : FilePath} (h : ∀ segment ∈ path.segments, IsWhole segment) :
    path.normal.IsNormal := by
  have hnames : ∀ name ∈ (Position.walk path.segments).names, IsWhole name := fun name hm => by
    rcases Position.mem_names_foldl path.segments hm with hm | hm
    · simp [Position.start] at hm
    · exact h name hm
  by_cases ha : path.anchor = .relative
  · have hs := segments_normal path
    rw [if_pos ha] at hs
    refine ⟨fun segment hm => ?_, Position.walk path.segments, upward_not_mem_walk _, hs,
      fun hn => absurd ha hn⟩
    rw [hs, Position.segments, List.mem_append] at hm
    rcases hm with hm | hm
    · rw [List.eq_of_mem_replicate hm]
      exact isWhole_upward
    · exact hnames segment hm
  · have hs := segments_normal path
    rw [if_neg ha] at hs
    refine ⟨fun segment hm => hnames segment (hs ▸ hm), ⟨0, (Position.walk path.segments).names⟩,
      upward_not_mem_walk _, ?_, fun _ => rfl⟩
    simp [hs, Position.segments]

theorem isNormal_normal_ofText (t : Text) : (ofText t).normal.IsNormal :=
  isNormal_normal fun _ => isWhole_of_mem_ofText

theorem normal_of_isNormal {path : FilePath} (h : path.IsNormal) : path.normal = path := by
  obtain ⟨p, hup, hs, ha⟩ := h.position
  have hsegments : path.normal.segments = path.segments := by
    rw [segments_normal, hs, Position.walk_segments hup]
    split
    · rfl
    · rename_i hn
      simp [Position.segments, ha hn]
  cases path
  simp only [normal, FilePath.mk.injEq, true_and]
  exact hsegments

/-- How many slashes stand for an anchor. -/
def slashes : Anchor → Nat
  | .relative => 0
  | .root => 1
  | .doubleRoot => 2

theorem anchorText_eq (anchor : Anchor) : anchorText anchor = List.replicate (slashes anchor) slash := by
  cases anchor <;> rfl

theorem takeWhile_replicate (n : Nat) {rest : Text} (h : rest.head? ≠ some slash) :
    (List.replicate n slash ++ rest).takeWhile (· = slash) = List.replicate n slash := by
  have hrest : rest.takeWhile (· = slash) = [] := by
    rcases rest with _ | ⟨c, rest⟩
    · rfl
    · exact List.takeWhile_cons_of_neg (by simpa using h)
  rw [List.takeWhile_append_of_pos (by simp), hrest, List.append_nil]

theorem anchorOf_replicate (anchor : Anchor) {rest : Text} (h : rest.head? ≠ some slash) :
    anchorOf (List.replicate (slashes anchor) slash ++ rest) = anchor := by
  rw [anchorOf, takeWhile_replicate _ h, List.length_replicate]
  cases anchor <;> rfl

/-- Slashes in front make no segments. -/
theorem segments_ofText_replicate (n : Nat) (t : Text) :
    (ofText (List.replicate n slash ++ t)).segments = (ofText t).segments := by
  induction n with
  | zero => rfl
  | succ n ih =>
    rw [← ih, List.replicate_succ, List.cons_append, ofText, ofText]
    simp [Text.split, isSegment]

theorem segments_ofText_dropLeading :
    ∀ t : Text, (ofText (t.dropLeading slash)).segments = (ofText t).segments
  | [] => rfl
  | c :: t => by
    by_cases hc : c = slash
    · subst hc
      exact (segments_ofText_dropLeading t).trans (segments_ofText_replicate 1 t).symm
    · rw [Text.dropLeading, List.dropWhile_cons_of_neg (by simpa using hc)]

theorem head?_dropLeading (t : Text) : (t.dropLeading slash).head? ≠ some slash := by
  intro h
  have hfirst := List.head?_dropWhile_not (fun c : CodePoint => decide (c = slash)) t
  rw [Text.dropLeading] at h
  rw [h] at hfirst
  simp at hfirst

theorem anchorOf_slash_cons (t : Text) : anchorOf (slash :: t) ≠ .relative := by
  rw [anchorOf, List.takeWhile_cons_of_pos (by simp), List.length_cons]
  split
  · omega
  · exact Anchor.noConfusion
  · exact Anchor.noConfusion

theorem join_eq_cons {segments : List Text} (hne : segments ≠ [])
    (h : ∀ segment ∈ segments, IsWhole segment) :
    ∃ c rest, Text.join [slash] segments = c :: rest ∧ c ≠ slash := by
  rcases segments with _ | ⟨first, others⟩
  · exact absurd rfl hne
  have hfirst := h first List.mem_cons_self
  rcases first with _ | ⟨c, part⟩
  · exact absurd rfl hfirst.ne_nil
  have hc : c ≠ slash := fun hc => hfirst.2 (hc ▸ List.mem_cons_self)
  rcases others with _ | ⟨second, others⟩
  · exact ⟨c, part, rfl, hc⟩
  · exact ⟨c, _, rfl, hc⟩

theorem getLast?_join : ∀ {segments : List Text}, segments ≠ [] →
    (∀ segment ∈ segments, IsWhole segment) →
    ∃ c, (Text.join [slash] segments).getLast? = some c ∧ c ≠ slash
  | [part], _, h => by
    have hpart := h part List.mem_cons_self
    obtain ⟨c, hc⟩ := Option.ne_none_iff_exists'.mp (mt List.getLast?_eq_none_iff.mp hpart.ne_nil)
    exact ⟨c, hc, fun he => hpart.2 (he ▸ List.mem_of_getLast? hc)⟩
  | part :: next :: parts, _, h => by
    obtain ⟨c, hc, hne⟩ := getLast?_join (List.cons_ne_nil next parts) fun s hs =>
      h s (List.mem_cons_of_mem part hs)
    refine ⟨c, ?_, hne⟩
    have hjoin : Text.join [slash] (next :: parts) ≠ [] := by
      intro hn
      rw [hn] at hc
      cases hc
    rw [Text.join, List.getLast?_append_of_ne_nil _ hjoin, hc]
    exact List.cons_ne_nil next parts

theorem head?_join {segments : List Text} (h : ∀ segment ∈ segments, IsWhole segment) :
    (Text.join [slash] segments).head? ≠ some slash := by
  by_cases hne : segments = []
  · simp [hne, Text.join]
  · obtain ⟨c, rest, hj, hc⟩ := join_eq_cons hne h
    rw [hj]
    simpa using hc

theorem segments_ofText_join {segments : List Text} (h : ∀ segment ∈ segments, IsWhole segment) :
    (ofText (Text.join [slash] segments)).segments = segments := by
  by_cases hne : segments = []
  · rw [hne]
    rfl
  · rw [ofText, Text.split_join hne fun s hs => (h s hs).2]
    exact List.filter_eq_self.mpr fun s hs => (h s hs).1

/-- The one path that is written with a point instead of its segments leads nowhere. -/
theorem eq_here_or (path : FilePath) :
    path = ⟨.relative, []⟩ ∨ (path.anchor ≠ .relative ∨ path.segments ≠ []) := by
  by_cases h : path.anchor ≠ .relative ∨ path.segments ≠ []
  · exact .inr h
  · rw [not_or, not_not, not_not] at h
    obtain ⟨anchor, segments⟩ := path
    obtain ⟨rfl, rfl⟩ := h
    exact .inl rfl

theorem toText_eq {path : FilePath} (h : path.anchor ≠ .relative ∨ path.segments ≠ []) :
    path.toText =
      List.replicate (slashes path.anchor) slash ++ Text.join [slash] path.segments := by
  rw [← anchorText_eq]
  rcases path with ⟨_ | _ | _, _ | ⟨segment, rest⟩⟩
  case relative.nil => exact absurd h (by simp)
  all_goals rfl

theorem ofText_toText {path : FilePath} (h : ∀ segment ∈ path.segments, IsWhole segment) :
    ofText path.toText = path := by
  rcases path.eq_here_or with rfl | hne
  · rfl
  · have hanchor := anchorOf_replicate path.anchor (head?_join h)
    have hsegments := (segments_ofText_replicate (slashes path.anchor) _).trans
      (segments_ofText_join h)
    rw [← toText_eq hne] at hanchor hsegments
    show FilePath.mk (anchorOf path.toText) (ofText path.toText).segments = path
    rw [hanchor, hsegments]

/-- The parts of a text behind its leading slashes; a text of slashes alone has none. -/
def partsOf (t : Text) : List Text :=
  if t.dropLeading slash = [] then [] else (t.dropLeading slash).split slash

/-- The text of a path in normal form. -/
structure NormalText (t : Text) : Prop where
  /-- No more than two slashes lead. -/
  leading : (t.takeWhile (· = slash)).length ≤ 2
  nonempty : ∀ part ∈ partsOf t, part ≠ []
  /-- A single point stands for a whole path alone. -/
  point : ∀ part ∈ partsOf t, part = "." → t = "."
  /-- `..` comes at the start of a relative path and nowhere else. -/
  upward : ∃ n names, partsOf t = List.replicate n FilePath.upward ++ names
    ∧ FilePath.upward ∉ names ∧ (t.head? = some slash → n = 0)
  /-- A slash ends a path of slashes alone. -/
  trailing : t.getLast? = some slash → t.dropLeading slash = []

theorem dropLeading_replicate (n : Nat) {t : Text} (h : t.head? ≠ some slash) :
    Text.dropLeading slash (List.replicate n slash ++ t) = t := by
  rw [Text.dropLeading, List.dropWhile_append_of_pos (by simp)]
  rcases t with _ | ⟨c, t⟩
  · rfl
  · exact List.dropWhile_cons_of_neg (by simpa using h)

theorem dropLeading_toText {path : FilePath} (h : path.IsNormal)
    (hne : path.anchor ≠ .relative ∨ path.segments ≠ []) :
    path.toText.dropLeading slash = Text.join [slash] path.segments := by
  rw [toText_eq hne, dropLeading_replicate _ (head?_join h.whole)]

theorem dropLeading_toText_relative {path : FilePath} (h : path.IsNormal)
    (hr : path.anchor = .relative) : path.toText.dropLeading slash = path.toText := by
  rcases path.eq_here_or with rfl | hne
  · decide
  · rw [dropLeading_toText h hne, toText_eq hne, hr]
    rfl

/-- The segments of a normal path make a normal relative path. -/
theorem IsNormal.relative {path : FilePath} (h : path.IsNormal) :
    IsNormal ⟨.relative, path.segments⟩ := by
  obtain ⟨p, hup, hs, -⟩ := h.position
  exact ⟨h.whole, p, hup, hs, fun hn => absurd rfl hn⟩

theorem partsOf_toText {path : FilePath} (h : path.IsNormal)
    (hne : path.anchor ≠ .relative ∨ path.segments ≠ []) : partsOf path.toText = path.segments := by
  rw [partsOf, dropLeading_toText h hne]
  by_cases hs : path.segments = []
  · simp [hs, Text.join]
  · obtain ⟨c, rest, hj, -⟩ := join_eq_cons hs h.whole
    rw [if_neg (by simp [hj]), Text.split_join hs fun s hm => (h.whole s hm).2]

theorem normalText_toText {path : FilePath} (h : path.IsNormal) : NormalText path.toText := by
  rcases path.eq_here_or with rfl | hne
  · have hparts : partsOf (toText ⟨.relative, []⟩) = [Text.ofString "."] := by decide
    refine ⟨by decide, ?_, fun _ _ _ => rfl, ⟨0, _, hparts, by decide, fun _ => rfl⟩, by decide⟩
    rw [hparts]
    decide
  · have hparts := partsOf_toText h hne
    obtain ⟨p, hup, hs, ha⟩ := h.position
    refine ⟨?_, fun part hp => ?_, fun part hp hpoint => ?_, ⟨p.above, p.names, ?_, hup, ?_⟩, ?_⟩
    · rw [toText_eq hne, takeWhile_replicate _ (head?_join h.whole), List.length_replicate]
      cases path.anchor <;> decide
    · exact (h.whole part (hparts ▸ hp)).ne_nil
    · have hwhole := (h.whole part (hparts ▸ hp)).1
      rw [hpoint] at hwhole
      exact absurd hwhole (by decide)
    · rw [hparts, hs, Position.segments]
    · intro hhead
      refine ha fun hrel => ?_
      rw [toText_eq hne, hrel] at hhead
      exact head?_join h.whole hhead
    · intro hlast
      rw [dropLeading_toText h hne]
      by_contra hjoin
      have hsegments : path.segments ≠ [] := by
        intro hn
        exact hjoin (by rw [hn, Text.join])
      obtain ⟨c, hc, hcs⟩ := getLast?_join hsegments h.whole
      rw [toText_eq hne, List.getLast?_append_of_ne_nil _ hjoin, hc] at hlast
      exact hcs (Option.some.inj hlast)

end PropertyLayers.FilePath
