import PropertyLayers.Proofs.Files.Walk

/-!
# Paths resolved before they are walked

A walk along a path goes back where the path says `..`, and so does the path that is resolved by
its text alone. Where the walk comes to an end the two agree (`locate_resolve`): on the way there each
name has led into a directory, so `..` takes back the last name that is left (`Standing`).
-/

namespace PropertyLayers

/-! ## The name that leads upwards -/

theorem mod_of_ofNat_eq {n : Nat} {b : UInt8} (h : UInt8.ofNat n = b) : n % 256 = b.toNat := by
  simpa using congrArg UInt8.toNat h

/-- The first byte of a longer sequence is never that of a point. -/
theorem Codec.utf8Bytes_eq_point {c : CodePoint} {more : Bytes}
    (h : utf8Bytes c = 46 :: more) : c = '.' ∧ more = [] := by
  have hc := c.lt_bound
  rw [utf8Bytes] at h
  by_cases h1 : c.val < 0x80
  · rw [if_pos h1, List.cons.injEq] at h
    have hmod : c.val % 256 = 46 := mod_of_ofNat_eq h.1
    exact ⟨CodePoint.ext (by rw [show c.val = 46 by omega]; rfl), h.2.symm⟩
  by_cases h2 : c.val < 0x800
  · rw [if_neg h1, if_pos h2, List.cons.injEq] at h
    have hmod : (0xC0 + c.val / 64) % 256 = 46 := mod_of_ofNat_eq h.1
    omega
  by_cases h3 : c.val < 0x10000
  · rw [if_neg h1, if_neg h2, if_pos h3, List.cons.injEq] at h
    have hmod : (0xE0 + c.val / 4096) % 256 = 46 := mod_of_ofNat_eq h.1
    omega
  · rw [if_neg h1, if_neg h2, if_neg h3, List.cons.injEq] at h
    have hmod : (0xF0 + c.val / 262144) % 256 = 46 := mod_of_ofNat_eq h.1
    omega

theorem CodePoint.nameBytes?_eq_point {c : CodePoint} {more : Bytes}
    (h : c.nameBytes? = some (46 :: more)) : c = '.' ∧ more = [] := by
  unfold nameBytes? at h
  split at h
  · cases h
  split at h
  · next hbyte =>
    simp only [Bool.and_eq_true, decide_eq_true_eq] at hbyte
    rw [Option.some.injEq, List.cons.injEq] at h
    have hmod : (c.val - 0xDC00) % 256 = 46 := mod_of_ofNat_eq h.1
    omega
  split at h
  · cases h
  · exact Codec.utf8Bytes_eq_point (Option.some.inj h)

theorem CodePoint.nameBytes?_ne_nil (c : CodePoint) : c.nameBytes? ≠ some [] := by
  have hbytes : Codec.utf8Bytes c ≠ [] := by
    intro h
    rw [Codec.utf8Bytes] at h
    dsimp only at h
    repeat' split at h
    all_goals cases h
  unfold nameBytes?
  repeat' split
  · simp
  · simp
  · simp
  · simpa using hbytes

theorem nameBytes?_cons (c : CodePoint) (rest : Text) :
    nameBytes? (c :: rest) = do return (← c.nameBytes?) ++ (← nameBytes? rest) := by
  rcases hc : c.nameBytes? with _ | part
  · simp [nameBytes?, hc]
  · rcases hr : rest.mapM CodePoint.nameBytes? with _ | parts <;> simp [nameBytes?, hc, hr]

theorem nameBytes?_eq_nil_iff {name : Text} : nameBytes? name = some [] ↔ name = [] := by
  refine ⟨fun h => ?_, fun h => h ▸ rfl⟩
  rcases name with _ | ⟨c, rest⟩
  · rfl
  rw [nameBytes?_cons] at h
  rcases hc : c.nameBytes? with _ | part <;> rw [hc] at h
  · cases h
  rcases hr : nameBytes? rest with _ | bytes <;> rw [hr] at h
  · cases h
  · simp only [Option.bind_eq_bind, Option.bind_some, Option.pure_def, Option.some.injEq,
      List.append_eq_nil_iff] at h
    exact absurd (h.1 ▸ hc) c.nameBytes?_ne_nil

theorem nameBytes?_cons_eq_point {c : CodePoint} {rest : Text} {bytes : Bytes}
    (h : nameBytes? (c :: rest) = some (46 :: bytes)) : c = '.' ∧ nameBytes? rest = some bytes := by
  rw [nameBytes?_cons] at h
  rcases hc : c.nameBytes? with _ | part <;> rw [hc] at h
  · cases h
  rcases hr : nameBytes? rest with _ | bytes' <;> rw [hr] at h
  · cases h
  rcases part with _ | ⟨b, more⟩
  · exact absurd hc c.nameBytes?_ne_nil
  · simp only [Option.bind_eq_bind, Option.bind_some, Option.pure_def, Option.some.injEq,
      List.cons_append, List.cons.injEq] at h
    obtain ⟨rfl, hmore⟩ := h
    obtain ⟨rfl, rfl⟩ := CodePoint.nameBytes?_eq_point hc
    exact ⟨rfl, by rw [← hmore]; rfl⟩

theorem nameBytes?_eq_upward_iff {name : Text} :
    nameBytes? name = some [46, 46] ↔ name = FilePath.upward := by
  refine ⟨fun h => ?_, fun h => h ▸ by decide⟩
  rcases name with _ | ⟨c, rest⟩
  · cases h
  obtain ⟨rfl, hrest⟩ := nameBytes?_cons_eq_point h
  rcases rest with _ | ⟨d, more⟩
  · cases hrest
  obtain ⟨rfl, hmore⟩ := nameBytes?_cons_eq_point hrest
  rw [nameBytes?_eq_nil_iff.mp hmore]
  rfl

/-! ## Where a walk stands -/

namespace Node

/-- From the root the names lead here, each into a part of what the one before it led to. -/
inductive Standing (root : Node) : List Text → Node → List Node → Prop
  | root : Standing root [] root []
  | down {way : List Text} {here child : Node} {above : List Node} {name : Text} {bytes : Bytes} :
      Standing root way here above → name ≠ FilePath.upward → nameBytes? name = some bytes →
      here.entry bytes = .ok child → Standing root (way ++ [name]) child (here :: above)

variable {root here node : Node} {above : List Node} {way : List Text}

theorem Standing.goOn {segment : Text} {bytes : Bytes} {rest : List Bytes}
    (h : Standing root way here above) (hb : nameBytes? segment = some bytes)
    (hwalk : here.walk above (bytes :: rest) = .ok node) :
    ∃ next above', Standing root (FilePath.goOn true way segment) next above'
      ∧ next.walk above' rest = .ok node := by
  by_cases hup : segment = FilePath.upward
  · rw [nameBytes?_eq_upward_iff.mpr hup, Option.some.injEq] at hb
    rcases here with content | entries
    · simp [walk, ← hb] at hwalk
    cases h with
    | root =>
      refine ⟨_, _, ?_, by simpa [walk, ← hb] using hwalk⟩
      simpa [FilePath.goOn, hup] using Standing.root
    | down h hname =>
      refine ⟨_, _, ?_, by simpa [walk, ← hb] using hwalk⟩
      simpa [FilePath.goOn, hup, hname] using h
  · have hne : bytes ≠ [46, 46] := fun he => hup (nameBytes?_eq_upward_iff.mp (he ▸ hb))
    rcases he : here.entry bytes with fault | child
    · simp [walk, hne, he] at hwalk
    · refine ⟨child, here :: above, ?_, by simpa [walk, hne, he] using hwalk⟩
      simpa [FilePath.goOn, hup] using h.down hup hb he

theorem Standing.foldl_goOn :
    ∀ {segments : List Text} {names : List Bytes} {way : List Text} {here : Node}
      {above : List Node}, Standing root way here above → segments.mapM nameBytes? = some names →
        here.walk above names = .ok node →
          ∃ above', Standing root (segments.foldl (FilePath.goOn true) way) node above'
  | [], names, way, here, above, h, hn, hwalk => by
    cases hn
    cases hwalk
    exact ⟨above, h⟩
  | segment :: segments, names, way, here, above, h, hn, hwalk => by
    rw [List.mapM_cons] at hn
    rcases hb : nameBytes? segment with _ | bytes <;> rw [hb] at hn
    · cases hn
    rcases hm : segments.mapM nameBytes? with _ | names' <;> rw [hm] at hn
    · cases hn
    cases hn
    obtain ⟨next, above', h', hwalk'⟩ := h.goOn hb hwalk
    exact h'.foldl_goOn hm hwalk'

theorem Standing.walk_root (h : Standing root way here above) :
    ∃ names, way.mapM nameBytes? = some names
      ∧ ∀ rest, root.walk [] (names ++ rest) = here.walk above rest := by
  induction h with
  | root => exact ⟨[], rfl, fun rest => rfl⟩
  | @down way here child above name bytes h hname hb he ih =>
    obtain ⟨names, hnames, hwalk⟩ := ih
    refine ⟨names ++ [bytes], by simp [List.mapM_append, hnames, hb], fun rest => ?_⟩
    have hne : bytes ≠ [46, 46] := fun h => hname (nameBytes?_eq_upward_iff.mp (h ▸ hb))
    rw [List.append_assoc, hwalk]
    simp [walk, hne, he]

end Node

namespace FileTree

variable {tree : FileTree} {path : FilePath}

/-- What a walk along the path comes to is at the resolved path too. -/
theorem locate_resolve {node : Node} (h : tree.locate path = .ok node) :
    tree.locate (tree.workingDirectory.resolve path) = .ok node := by
  unfold FileTree.locate at h
  split at h
  · next names hn =>
    obtain ⟨above, hstanding⟩ := Node.Standing.root.foldl_goOn hn h
    obtain ⟨names', hn', hwalk⟩ := hstanding.walk_root
    have hsegments : (tree.workingDirectory ++ tree.workingDirectory.resolve path).segments =
        (tree.workingDirectory ++ path).segments.foldl (FilePath.goOn true) [] := rfl
    rw [FileTree.locate, hsegments, hn']
    simpa [Node.walk] using hwalk []
  · cases h

end FileTree

theorem FilePath.exists_along_of_mem_ancestors {path d : FilePath} (h : d ∈ path.ancestors) :
    ∃ more, d.along more = path := by
  obtain ⟨n, -, rfl⟩ := List.mem_map.mp h
  exact ⟨path.segments.drop (path.segments.length - n), by simp [along]⟩

end PropertyLayers
