import PropertyLayers.Configuration.Resolve
import PropertyLayers.Proofs.Files.Resolved

/-!
# The nearest project file

From a directory upwards, the first regular file with the name of project files is the project file
(`projectFile_of_nearest`). The search comes to an end wherever the files on the way can be asked
for, which holds of every directory that is there, unless it is far down (`startable_of_ok`).
-/

namespace PropertyLayers

theorem FileTree.hasFile_of_ne_tooLong {tree : FileTree} {path : FilePath}
    (h : tree.node path ≠ .error .nameTooLong) :
    tree.hasFile path = .ok (tree.content? path).isSome := by
  unfold hasFile content?
  rcases hn : tree.node path with (_ | _ | _ | _) | (content | entries)
  case error.nameTooLong => exact absurd hn h
  all_goals rfl

theorem FileTree.node_of_content? {tree : FileTree} {path : FilePath} {content : Bytes}
    (h : tree.content? path = some content) : tree.node path = .ok (.file content) := by
  unfold content? at h
  split at h
  · next hnode =>
    cases h
    exact hnode
  · cases h

namespace Configuration

/-- The directories in which a project file is searched for, the nearest first. -/
def searched (tree : FileTree) (start : FilePath) : List FilePath :=
  (tree.workingDirectory.resolve start).ancestors

/-- A search can start here: each name on the way is one, and no path to a project file is too
long. -/
structure Startable (tree : FileTree) (start : FilePath) : Prop where
  named : (start.segments.mapM nameBytes?).isSome
  short : ∀ d ∈ searched tree start, tree.node (d.child projectFileName) ≠ .error .nameTooLong

/-- The first directory, from the start upwards, that holds a regular file with the name of project
files, and the content of the file. -/
def Nearest (tree : FileTree) (start d : FilePath) (content : Bytes) : Prop :=
  ∃ nearer farther, searched tree start = nearer ++ d :: farther
    ∧ (∀ n ∈ nearer, tree.content? (n.child projectFileName) = none)
    ∧ tree.content? (d.child projectFileName) = some content

/-- None of the directories holds a project file. -/
def NoneNear (tree : FileTree) (start : FilePath) : Prop :=
  ∀ d ∈ searched tree start, tree.content? (d.child projectFileName) = none

variable {tree : FileTree} {start : FilePath}

theorem Nearest.content?_eq {d : FilePath} {content : Bytes} (h : Nearest tree start d content) :
    tree.content? (d.child projectFileName) = some content := by
  obtain ⟨-, -, -, -, hc⟩ := h
  exact hc

theorem slash_not_mem_projectFileName : FilePath.slash ∉ projectFileName := by decide

theorem startable_of_ok {node : Node} (h : tree.node start = .ok node)
    (hshort : ∀ d ∈ searched tree start, (d.child projectFileName).isTooLong = false) :
    Startable tree start := by
  have hlocate := FileTree.locate_of_node h
  constructor
  · unfold FileTree.locate at hlocate
    split at hlocate
    · next names hn =>
      rcases start with ⟨_ | _ | _, segments⟩
      case relative =>
        have hsegments : (tree.workingDirectory ++ ⟨.relative, segments⟩).segments =
            tree.workingDirectory.segments ++ segments := rfl
        rw [hsegments, List.mapM_append] at hn
        rcases hm : segments.mapM nameBytes? with _ | names'
        · rcases hw : tree.workingDirectory.segments.mapM nameBytes? <;> simp [hw, hm] at hn
        · rfl
      all_goals exact Option.isSome_of_mem hn
    · cases hlocate
  · intro d hd
    have hd' : tree.locate d ≠ .error .nameTooLong := by
      intro hlong
      obtain ⟨more, hmore⟩ := FilePath.exists_along_of_mem_ancestors hd
      have hok := FileTree.locate_resolve hlocate
      rw [← hmore] at hok
      rcases FileTree.locate_along_of_error hlong more with he | he <;> rw [hok] at he <;> cases he
    have hbytes : ∃ bytes, nameBytes? projectFileName = some bytes
        ∧ bytes.length ≤ maxNameBytes := by decide
    obtain ⟨bytes, hb, hname⟩ := hbytes
    rw [FileTree.node, hshort d hd]
    exact FileTree.locate_child_ne_tooLong hd' slash_not_mem_projectFileName hb hname

theorem nearest_or_noneNear (tree : FileTree) (start : FilePath) :
    (∃ d content, Nearest tree start d content) ∨ NoneNear tree start := by
  rcases hfind : (searched tree start).find?
      fun d => (tree.content? (d.child projectFileName)).isSome with _ | d
  · right
    intro d hd
    simpa using List.find?_eq_none.mp hfind d hd
  · left
    obtain ⟨hd, nearer, farther, hs, hnone⟩ := List.find?_eq_some_iff_append.mp hfind
    obtain ⟨content, hc⟩ := Option.isSome_iff_exists.mp hd
    exact ⟨d, content, nearer, farther, hs, by simpa using hnone, hc⟩

theorem firstFile_eq : ∀ {paths : List FilePath},
    (∀ path ∈ paths, tree.node path ≠ .error .nameTooLong) →
      firstFile tree paths = .ok (paths.find? fun path => (tree.content? path).isSome)
  | [], _ => rfl
  | path :: rest, h => by
    obtain ⟨hpath, hrest⟩ := List.forall_mem_cons.mp h
    rw [firstFile, FileTree.hasFile_of_ne_tooLong hpath]
    rcases hc : tree.content? path with _ | content
    · simpa [hc] using firstFile_eq hrest
    · simp [hc]

theorem projectFile_eq (h : Startable tree start) :
    projectFile tree start = .ok (((searched tree start).map fun d => d.child projectFileName).find?
      fun path => (tree.content? path).isSome) := by
  have hnone : ¬ (start.segments.mapM nameBytes?).isNone := by
    rw [← Option.not_isSome, h.named]
    decide
  rw [projectFile, if_neg hnone]
  refine firstFile_eq fun path hm => ?_
  obtain ⟨d, hd, rfl⟩ := List.mem_map.mp hm
  exact h.short d hd

theorem projectFile_of_nearest {d : FilePath} {content : Bytes} (h : Startable tree start)
    (hd : Nearest tree start d content) :
    projectFile tree start = .ok (some (d.child projectFileName)) := by
  obtain ⟨nearer, farther, hs, hnone, hc⟩ := hd
  rw [projectFile_eq h, Except.ok.injEq, List.find?_eq_some_iff_append]
  refine ⟨by rw [hc]; rfl, nearer.map fun d => d.child projectFileName,
    farther.map fun d => d.child projectFileName, by rw [hs]; simp, ?_⟩
  intro path hm
  obtain ⟨n, hn, rfl⟩ := List.mem_map.mp hm
  rw [hnone n hn]
  rfl

theorem projectFile_of_noneNear (h : Startable tree start) (hnone : NoneNear tree start) :
    projectFile tree start = .ok none := by
  rw [projectFile_eq h, Except.ok.injEq, List.find?_eq_none]
  intro path hm
  obtain ⟨d, hd, rfl⟩ := List.mem_map.mp hm
  simp [hnone d hd]

theorem parent_child_projectFileName (d : FilePath) : (d.child projectFileName).parent = d := by
  have hsegment : [projectFileName].filter FilePath.isSegment = [projectFileName] := by decide
  rw [FilePath.child_eq_along d slash_not_mem_projectFileName, hsegment]
  simp [FilePath.parent, FilePath.along]

end Configuration

end PropertyLayers
