import Mathlib.Data.List.Basic
import PropertyLayers.Files.Tree
import PropertyLayers.Proofs.Files.Normal

/-!
# Walks along paths

Along two stretches of names a walk goes on from where the first one leads (`walk_append`). So what
is under a path is found from the node at the path (`locate_along_of_ok`), and nothing is under a
path that leads nowhere (`locate_along_of_error`). The only names that cannot be asked for in a
directory are those that are too long (`locate_child_eq_tooLong_iff`), and a path that cannot be
asked for is too long as a whole, or leads through directories to such a name
(`node_eq_tooLong_iff`).
-/

namespace PropertyLayers

theorem Node.walk_append (more : List Bytes) :
    ∀ (names : List Bytes) (here : Node) (above : List Node),
      (∀ fault, here.walk above names = .error fault →
          here.walk above (names ++ more) = .error fault)
        ∧ ∀ node, here.walk above names = .ok node →
          ∃ above', here.walk above (names ++ more) = node.walk above' more
  | [], here, above => by
    refine ⟨fun fault h => by simp [walk] at h, fun node h => ?_⟩
    cases h
    exact ⟨above, rfl⟩
  | name :: names, here, above => by
    rw [List.cons_append]
    by_cases hup : name = [46, 46]
    · rcases here with content | entries
      · simp [walk, hup]
      · rcases above with _ | ⟨parent, above⟩
        · simpa [walk, hup] using walk_append more names (.directory entries) []
        · simpa [walk, hup] using walk_append more names parent above
    · rcases he : here.entry name with fault | child
      · simp [walk, hup, he]
      · simpa [walk, hup, he] using walk_append more names child (here :: above)

theorem Node.walk_directory_eq_tooLong_iff (entries : List (Bytes × Node)) (above : List Node)
    (name : Bytes) :
    (Node.directory entries).walk above [name] = .error .nameTooLong ↔
      maxNameBytes < name.length := by
  by_cases hup : name = [46, 46]
  · rcases above with _ | ⟨parent, above⟩ <;> simp [walk, hup, maxNameBytes]
  · by_cases hlong : maxNameBytes < name.length
    · simp [walk, entry, hup, hlong]
    · rcases hf : Keyed.find? name entries with _ | child <;> simp [walk, entry, hup, hlong, hf]

theorem Node.walk_file (content : Bytes) (above : List Node) (name : Bytes) :
    (Node.file content).walk above [name] = .error .notDirectory := by
  simp [walk, entry]

/-- At a name a walk goes on from one node, or it ends whatever follows. -/
theorem Node.walk_cons (here : Node) (above : List Node) (name : Bytes) :
    (∃ (next : Node) (above' : List Node),
        ∀ more, here.walk above (name :: more) = next.walk above' more)
      ∨ ∃ fault, (∀ more, here.walk above (name :: more) = .error fault)
        ∧ (fault = .nameTooLong →
          ∃ entries, here = .directory entries ∧ maxNameBytes < name.length) := by
  by_cases hup : name = [46, 46]
  · rcases here with content | entries
    · exact .inr ⟨.notDirectory, fun more => by simp [walk, hup], by simp⟩
    · rcases above with _ | ⟨parent, above⟩
      · exact .inl ⟨.directory entries, [], fun more => by simp [walk, hup]⟩
      · exact .inl ⟨parent, above, fun more => by simp [walk, hup]⟩
  · rcases he : here.entry name with fault | child
    · refine .inr ⟨fault, fun more => by simp [walk, hup, he], ?_⟩
      rintro rfl
      unfold entry at he
      split at he
      · cases he
      · next entries =>
        split at he
        · next hlong => exact ⟨entries, rfl, hlong⟩
        · split at he <;> cases he
    · exact .inl ⟨child, here :: above, fun more => by simp [walk, hup, he]⟩

/-- A walk cannot be made if it leads to a directory, and there to a name that is too long. -/
theorem Node.walk_eq_tooLong_iff :
    ∀ {names : List Bytes} {here : Node} {above : List Node},
      here.walk above names = .error .nameTooLong ↔
        ∃ before name after entries, names = before ++ name :: after
          ∧ here.walk above before = .ok (.directory entries) ∧ maxNameBytes < name.length
  | [], here, above => by simp [walk]
  | name :: rest, here, above => by
    constructor
    · intro h
      rcases walk_cons here above name with ⟨next, above', hgoes⟩ | ⟨fault, hends, hfault⟩
      · rw [hgoes] at h
        obtain ⟨before, long, after, entries, rfl, hbefore, hlong⟩ := walk_eq_tooLong_iff.mp h
        exact ⟨name :: before, long, after, entries, rfl, (hgoes before).trans hbefore, hlong⟩
      · rw [hends] at h
        cases h
        obtain ⟨entries, rfl, hlong⟩ := hfault rfl
        exact ⟨[], name, rest, entries, rfl, rfl, hlong⟩
    · rintro ⟨before, long, after, entries, hnames, hbefore, hlong⟩
      rw [hnames]
      obtain ⟨above', hwalk⟩ := (walk_append (long :: after) before here above).2 _ hbefore
      have hhere := (walk_directory_eq_tooLong_iff entries above' long).mpr hlong
      rw [hwalk]
      exact (walk_append after [long] (.directory entries) above').1 _ hhere

namespace FilePath

/-- The path that goes on along more segments. -/
def along (path : FilePath) (more : List Text) : FilePath := ⟨path.anchor, path.segments ++ more⟩

theorem along_nil (path : FilePath) : path.along [] = path := by
  rw [along, List.append_nil]

theorem child_eq_along (path : FilePath) {name : Text} (h : slash ∉ name) :
    path.child name = path.along ([name].filter isSegment) := by
  have hhead : name.head? ≠ some slash := fun hs => h (List.mem_of_mem_head? hs)
  have hname : ofText name = ⟨.relative, [name].filter isSegment⟩ := by
    have hanchor := anchorOf_replicate .relative hhead
    simp only [slashes, List.replicate_zero, List.nil_append] at hanchor
    rw [ofText, hanchor, Text.split_of_not_mem h]
  show append path (ofText name) = _
  rw [hname]
  rfl

theorem segments_append_along (base path : FilePath) (more : List Text) :
    (base ++ path.along more).segments = (base ++ path).segments ++ more := by
  show (append base (path.along more)).segments = (append base path).segments ++ more
  rcases path with ⟨_ | _ | _, segments⟩ <;> simp [append, along]

end FilePath

namespace FileTree

variable {tree : FileTree} {path : FilePath}

theorem locate_along (tree : FileTree) (path : FilePath) (more : List Text) :
    tree.locate (path.along more) =
      match (tree.workingDirectory ++ path).segments.mapM nameBytes?, more.mapM nameBytes? with
      | some names, some names' => tree.root.walk [] (names ++ names')
      | _, _ => .error .notName := by
  rw [locate, FilePath.segments_append_along, List.mapM_append]
  rcases (tree.workingDirectory ++ path).segments.mapM nameBytes? with _ | names
  · rfl
  · rcases more.mapM nameBytes? with _ | names' <;> rfl

theorem locate_along_of_ok {node : Node} (h : tree.locate path = .ok node) (more : List Text) :
    ∃ above, tree.locate (path.along more) =
      match more.mapM nameBytes? with
      | some names => node.walk above names
      | none => .error .notName := by
  unfold FileTree.locate at h
  split at h
  · next names hn =>
    rw [locate_along, hn]
    rcases more.mapM nameBytes? with _ | names'
    · exact ⟨[], rfl⟩
    · exact (Node.walk_append names' names _ _).2 node h
  · cases h

theorem locate_along_of_error {fault : PathFault} (h : tree.locate path = .error fault)
    (more : List Text) :
    tree.locate (path.along more) = .error fault ∨ tree.locate (path.along more) = .error .notName := by
  rw [locate_along]
  unfold FileTree.locate at h
  split at h
  · next names hn =>
    rw [hn]
    rcases more.mapM nameBytes? with _ | names'
    · exact .inr rfl
    · exact .inl ((Node.walk_append names' names _ _).1 fault h)
  · next hn =>
    rw [hn]
    exact .inr rfl

theorem locate_segment_of_ok {node : Node} (h : tree.locate path = .ok node) (segment : Text) :
    ∃ above, tree.locate (path.along [segment]) =
      match nameBytes? segment with
      | some name => node.walk above [name]
      | none => .error .notName := by
  obtain ⟨above, ha⟩ := locate_along_of_ok h [segment]
  refine ⟨above, ha.trans ?_⟩
  rcases hb : nameBytes? segment with _ | name <;> simp [hb]

/-- A name that takes many bytes is one that counts. -/
theorem isSegment_of_nameBytes? {name : Text} {bytes : Bytes} (h : nameBytes? name = some bytes)
    (hlong : 1 < bytes.length) : FilePath.isSegment name := by
  rw [FilePath.isSegment, Bool.and_eq_true, decide_eq_true_iff]
  constructor
  · rcases name with _ | ⟨c, rest⟩
    · cases h
      simp at hlong
    · rfl
  · rintro rfl
    have hone : nameBytes? "." = some [46] := by decide
    rw [hone] at h
    cases h
    simp at hlong

theorem locate_child_eq_tooLong_iff {entries : List (Bytes × Node)}
    (h : tree.locate path = .ok (.directory entries)) {name : Text} (hname : FilePath.slash ∉ name) :
    tree.locate (path.child name) = .error .nameTooLong ↔
      ∃ bytes, nameBytes? name = some bytes ∧ maxNameBytes < bytes.length := by
  rw [FilePath.child_eq_along path hname]
  by_cases hseg : FilePath.isSegment name
  · obtain ⟨above, ha⟩ := locate_segment_of_ok h name
    rw [List.filter_cons_of_pos hseg, List.filter_nil, ha]
    rcases nameBytes? name with _ | bytes
    · simp
    · simp only [Option.some.injEq, exists_eq_left']
      exact Node.walk_directory_eq_tooLong_iff entries above bytes
  · have hshort : ¬ ∃ bytes, nameBytes? name = some bytes ∧ maxNameBytes < bytes.length := by
      rintro ⟨bytes, hb, hlong⟩
      exact hseg (isSegment_of_nameBytes? hb (Nat.lt_trans (by decide) hlong))
    rw [List.filter_cons_of_neg hseg, List.filter_nil, FilePath.along_nil, h]
    simpa using hshort

/-- Where a path can be asked for, so can a name under it that is not too long. -/
theorem locate_child_ne_tooLong (h : tree.locate path ≠ .error .nameTooLong) {name : Text}
    (hname : FilePath.slash ∉ name) {bytes : Bytes} (hb : nameBytes? name = some bytes)
    (hshort : bytes.length ≤ maxNameBytes) : tree.locate (path.child name) ≠ .error .nameTooLong := by
  rcases hp : tree.locate path with fault | content | entries
  · rw [FilePath.child_eq_along path hname]
    rw [hp] at h
    rcases locate_along_of_error hp ([name].filter FilePath.isSegment) with he | he <;> rw [he]
    · exact h
    · simp
  · rw [FilePath.child_eq_along path hname]
    by_cases hseg : FilePath.isSegment name
    · obtain ⟨above, ha⟩ := locate_segment_of_ok hp name
      rw [List.filter_cons_of_pos hseg, List.filter_nil, ha, hb]
      simp [Node.walk_file]
    · rw [List.filter_cons_of_neg hseg, List.filter_nil, FilePath.along_nil, hp]
      simp
  · rw [Ne, locate_child_eq_tooLong_iff hp hname]
    rintro ⟨bytes', hb', hlong⟩
    rw [hb] at hb'
    cases hb'
    omega

/-! ## Paths that cannot be asked for -/

theorem locate_of_node {node : Node} (h : tree.node path = .ok node) :
    tree.locate path = .ok node := by
  unfold FileTree.node at h
  split at h
  · cases h
  · exact h

/-- The path takes more bytes than a path can have, or it leads to a directory and there to a name
that takes more than a name can have. -/
inductive TooLong (tree : FileTree) (path : FilePath) : Prop
  | path : path.isTooLong → TooLong tree path
  | name {names before after : List Bytes} {name : Bytes} {entries : List (Bytes × Node)} :
      (tree.workingDirectory ++ path).segments.mapM nameBytes? = some names →
        names = before ++ name :: after → tree.root.walk [] before = .ok (.directory entries) →
          maxNameBytes < name.length → TooLong tree path

theorem node_eq_tooLong_iff : tree.node path = .error .nameTooLong ↔ tree.TooLong path := by
  unfold FileTree.node
  split
  · next hpath => exact iff_of_true rfl (.path hpath)
  next hpath =>
  unfold locate
  constructor
  · intro h
    split at h
    · next names hnames =>
      obtain ⟨before, name, after, entries, hsplit, hbefore, hlong⟩ :=
        Node.walk_eq_tooLong_iff.mp h
      exact .name hnames hsplit hbefore hlong
    · cases h
  · rintro (htoo | ⟨hnames, hsplit, hbefore, hlong⟩)
    · exact absurd htoo hpath
    · rw [hnames]
      exact Node.walk_eq_tooLong_iff.mpr ⟨_, _, _, _, hsplit, hbefore, hlong⟩

end FileTree

end PropertyLayers
