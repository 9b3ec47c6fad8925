import Mathlib
import PropertyLayers.Proofs.Configuration.Layers
import PropertyLayers.Proofs.Configuration.Nearest
import PropertyLayers.Proofs.Toml.Distinct

/-!
# Settings from layers

The file of the user and the section of the nearest project file are what is declared in files, and
with overrides they are the layers for a directory (`Configuration.Reads`). Settings are what the
check makes of the layers laid over each other (`Configuration.resolve_eq_checked`).
-/

namespace PropertyLayers

namespace Configuration

/-! ## Files -/

theorem distinct_of_readTable {content : Bytes} {table : Table}
    (h : readTable content = .ok table) : (Value.table table).Distinct := by
  unfold readTable at h
  split at h
  · cases h
  split at h
  · next hread =>
    cases h
    exact Toml.distinct_of_readDocument hread
  · cases h
  · cases h

/-- What the file of the user declares, if there is one. -/
inductive UserDeclares (tree : FileTree) : Option Declared → Prop
  | absent : tree.node (userFile tree) = .error .missing → UserDeclares tree none
  | present {content : Bytes} {table : Table} : tree.content? (userFile tree) = some content →
      readTable content = .ok table → UserDeclares tree (some ⟨(userFile tree).parent, table⟩)

/-- What the section of the nearest project file declares, if there are such a file and such a
section. -/
inductive ProjectDeclares (tree : FileTree) (start : FilePath) : Option Declared → Prop
  | noFile : NoneNear tree start → ProjectDeclares tree start none
  | noSection {d : FilePath} {content : Bytes} {table : Table} : Nearest tree start d content →
      readTable content = .ok table →
      (∀ tool, Keyed.find? toolKey table = some (.table tool) →
        Keyed.find? sectionKey tool = none) →
      ProjectDeclares tree start none
  | present {d : FilePath} {content : Bytes} {table tool layer : Table} :
      Nearest tree start d content → readTable content = .ok table →
      Keyed.find? toolKey table = some (.table tool) →
      Keyed.find? sectionKey tool = some (.table layer) →
      ProjectDeclares tree start (some ⟨d, layer⟩)

variable {tree : FileTree} {start : FilePath} {declared? : Option Declared}

theorem anchored_of_seen {path : FilePath} {layer table : Table}
    (h : Layer.anchorSearchPaths path.parent layer = .ok table) :
    anchored path layer = .ok table := by
  rw [anchored, h]
  rfl

theorem userLayer_of_declares (h : UserDeclares tree declared?)
    (hlists : ∀ declared ∈ declared?, Layer.ListsPaths declared.table) :
    ∃ layer?, userLayer tree = .ok layer? ∧ Declared.SeenAs declared? layer? := by
  cases h with
  | absent hmissing =>
    exact ⟨none, by rw [userLayer, hmissing], Declared.seenAs_none⟩
  | @present content table hcontent hread =>
    obtain ⟨hkeys, -⟩ := Value.distinct_table_iff.mp (distinct_of_readTable hread)
    obtain ⟨layer, hlayer, hseen⟩ := Declared.exists_seenAs hkeys (hlists _ rfl)
    refine ⟨some layer, ?_, hseen⟩
    have hnode := FileTree.node_of_content? hcontent
    have hanchored : anchored (userFile tree) table = .ok layer := anchored_of_seen hlayer
    simp only [userLayer, hnode, hread, hanchored, bind, Except.bind]
    rfl

theorem projectLayer_of_declares (hstart : Startable tree start)
    (h : ProjectDeclares tree start declared?)
    (hlists : ∀ declared ∈ declared?, Layer.ListsPaths declared.table) :
    ∃ layer?, projectLayer tree start = .ok layer? ∧ Declared.SeenAs declared? layer? := by
  cases h with
  | noFile hnone =>
    refine ⟨none, ?_, Declared.seenAs_none⟩
    rw [projectLayer, projectFile_of_noneNear hstart hnone]
    rfl
  | @noSection d content table hnear hread hnone =>
    refine ⟨none, ?_, Declared.seenAs_none⟩
    have hsection : projectSection table = .ok none := by
      unfold projectSection
      split
      · next tool htool => rw [hnone tool htool]
      · rfl
    have hcontent := hnear.content?_eq
    simp only [projectLayer, projectFile_of_nearest hstart hnear, hcontent, Option.getD_some, hread,
      hsection, bind, Except.bind]
    rfl
  | @present d content table tool own hnear hread htool hsection =>
    have htables := distinct_of_readTable hread
    obtain ⟨hkeys, -⟩ := Value.distinct_table_iff.mp ((htables.of_find? htool).of_find? hsection)
    obtain ⟨layer, hlayer, hseen⟩ := Declared.exists_seenAs hkeys (hlists _ rfl)
    refine ⟨some layer, ?_, hseen⟩
    have hfound : projectSection table = .ok (some own) := by
      rw [projectSection, htool]
      simp only [hsection]
    have hcontent := hnear.content?_eq
    have hanchored : anchored (d.child projectFileName) own = .ok layer :=
      anchored_of_seen (by rw [parent_child_projectFileName]; exact hlayer)
    simp only [projectLayer, projectFile_of_nearest hstart hnear, hcontent, Option.getD_some, hread,
      hfound, hanchored, bind, Except.bind]
    rfl

/-! ## The outcome -/

/-- These are the layers for a directory. -/
structure Reads (tree : FileTree) (start : FilePath) (layers : Layers) : Prop where
  startable : Startable tree start
  user : UserDeclares tree layers.user
  project : ProjectDeclares tree start layers.project
  wellFormed : layers.WellFormed

/-- What the check makes of a table. -/
def checked (table : Table) : Except ConfigurationFault Settings :=
  (Settings.check (.table table)).toExcept.mapError .invalid

variable {layers : Layers}

theorem resolve_eq_checked (h : Reads tree start layers) :
    resolve tree start layers.overrides = checked (layers.table Layer.anchorPath) := by
  obtain ⟨user?, huser, hseenUser⟩ := userLayer_of_declares h.user h.wellFormed.user
  obtain ⟨project?, hproject, hseenProject⟩ :=
    projectLayer_of_declares h.startable h.project h.wellFormed.project
  rw [← Layers.merge_eq_table hseenUser hseenProject h.wellFormed.overrides]
  simp only [resolve, resolveWith, huser, hproject, bind, Except.bind]
  rfl

/-- The value that counts of each key is checked, and search paths in files are seen from the
directory of the file. Relative ones have been put under it, and absolute ones stay as they are
written if they are written as paths are. No other value in the files changes the outcome. -/
theorem resolve_layered (h : Reads tree start layers) :
    resolve tree start layers.overrides = checked (layers.table Layer.anchorPath)
      ∧ (layers.Spelled →
        resolve tree start layers.overrides = checked (layers.table Layer.placePath))
      ∧ ∀ {tree' start' layers'}, Reads tree' start' layers' → layers.AgreeWhereShown layers' →
        resolve tree' start' layers'.overrides = resolve tree start layers.overrides := by
  refine ⟨resolve_eq_checked h, fun hspelled => ?_, fun h' hagree => ?_⟩
  · rw [resolve_eq_checked h, hspelled.table_eq]
  · rw [resolve_eq_checked h', resolve_eq_checked h, hagree.table_eq]

/-! ## A directory in a project -/

def named (name : Text) (node : Node) : Bytes × Node := ((nameBytes? name).getD [], node)

/-- A home, and a directory in a project whose file has this content. -/
def exampleTree (home : Node) (project : Bytes) : FileTree :=
  let proj : Node := .directory [named projectFileName (.file project), named "src" (.directory [])]
  ⟨.directory [named "home" home, named "proj" proj], .ofText "/proj/src", .ofText "/home"⟩

theorem startable_exampleTree (home : Node) (project : Bytes) :
    Startable (exampleTree home project) (.ofText ".") := by
  have hnode : (exampleTree home project).node (.ofText ".") = .ok (.directory []) := rfl
  have hsearched : searched (exampleTree home project) (.ofText ".") =
      [.ofText "/proj/src", .ofText "/proj", .ofText "/"] := by cbv
  refine startable_of_ok hnode ?_
  rw [hsearched]
  decide

theorem nearest_exampleTree (home : Node) (project : Bytes) :
    Nearest (exampleTree home project) (.ofText ".") (.ofText "/proj") project := by
  refine ⟨[.ofText "/proj/src"], [.ofText "/"], by cbv, fun n hn => ?_, rfl⟩
  rw [List.mem_singleton.mp hn]
  rfl

/-- The bytes of a file with a section that has these search paths. -/
def searchingProject (paths : Text) : Bytes :=
  ("[tool.propstack]\nsearch_paths = " ++ paths : Text).flatMap Codec.utf8Bytes

/-- The directory of a user whose file has this content. -/
def configuredHome (content : Bytes) : Node :=
  .directory [named ".config"
    (.directory [named "propstack" (.directory [named "config.toml" (.file content)])])]

/-- The bytes of a file of a user with this encoding. -/
def encodedUser (encoding : Text) : Bytes :=
  ("encoding = " ++ encoding ++ "\nsearch_paths = [\"all\"]" : Text).flatMap Codec.utf8Bytes

def exampleOverrides : Table := [("encoding", .text "latin-1"), ("default_suffix", .null)]

def exampleLayers (encoding : Value) : Layers where
  user := some ⟨.ofText "/home/.config/propstack",
    [("encoding", encoding), ("search_paths", .list [.text "all"])]⟩
  project := some ⟨.ofText "/proj", [("search_paths", .list [.text "res", .text "/etc"])]⟩
  overrides := exampleOverrides

theorem wellFormed_exampleLayers (encoding : Value) : (exampleLayers encoding).WellFormed := by
  have hoverrides : (Keyed.keys exampleOverrides).Nodup := by decide
  refine ⟨hoverrides, ?_, ?_⟩
  · rintro declared ⟨⟩ value ⟨⟩
    exact ⟨_, rfl⟩
  · rintro declared ⟨⟩ value ⟨⟩
    exact ⟨_, rfl⟩

theorem agreeWhereShown_exampleLayers (encoding encoding' : Value) :
    (exampleLayers encoding).AgreeWhereShown (exampleLayers encoding') := by
  refine ⟨rfl, rfl, rfl, fun _ _ => rfl, fun key ho _ => ?_⟩
  have hkey : key ≠ "encoding" := by
    rintro rfl
    cases ho
  simp [exampleLayers, Declared.value?, Keyed.find?, Ne.symm hkey]

theorem spelled_exampleLayers (encoding : Value) : (exampleLayers encoding).Spelled := by
  rintro - value ⟨⟩ items ⟨⟩ path hm habsolute
  simp only [List.mem_cons, Value.text.injEq, List.not_mem_nil, or_false] at hm
  rcases hm with rfl | rfl
  · exact absurd (by decide) habsolute
  · decide

theorem reads_exampleTree {content : Bytes} {encoding : Value}
    (hread : readTable content =
      .ok [("encoding", encoding), ("search_paths", .list [.text "all"])]) :
    Reads (exampleTree (configuredHome content) (searchingProject "[\"res\", \"/etc\"]"))
      (.ofText ".") (exampleLayers encoding) :=
  ⟨startable_exampleTree _ _, .present rfl hread,
    .present (nearest_exampleTree _ _) (by cbv) rfl rfl, wellFormed_exampleLayers encoding⟩

/-- It does not matter that a user has a number or a list as encoding, since there is an override,
and the search paths of the project count. -/
theorem resolve_layered_exampleTree :
    let project := searchingProject "[\"res\", \"/etc\"]"
    let number := exampleTree (configuredHome (encodedUser "3")) project
    let list := exampleTree (configuredHome (encodedUser "[]")) project
    let layers := exampleLayers (.int 3)
    let layers' := exampleLayers (.list [])
    Reads number (.ofText ".") layers ∧ Reads list (.ofText ".") layers'
      ∧ layers.AgreeWhereShown layers' ∧ layers.Spelled
      ∧ resolve number (.ofText ".") layers.overrides =
        .ok ⟨".properties", "latin-1", ["/proj/res", "/etc"], false⟩
      ∧ resolve list (.ofText ".") layers'.overrides =
        resolve number (.ofText ".") layers.overrides := by
  intro project number list layers layers'
  have hnumber : Reads number (.ofText ".") layers := reads_exampleTree (by cbv)
  have hlist : Reads list (.ofText ".") layers' := reads_exampleTree (by cbv)
  have hspelled := spelled_exampleLayers (.int 3)
  have hagree := agreeWhereShown_exampleLayers (.int 3) (.list [])
  obtain ⟨-, hplaced, hhidden⟩ := resolve_layered hnumber
  exact ⟨hnumber, hlist, hagree, hspelled, (hplaced hspelled).trans (by cbv), hhidden hlist hagree⟩

/-- An absolute path loses the slash at its end. And where there cannot be a file of the user, since
a regular file stands in its way, there are no settings at all. -/
theorem resolve_unlayered :
    let slashed := exampleTree (.directory []) (searchingProject "[\"/opt/conf/\"]")
    let layers : Layers :=
      ⟨none, some ⟨.ofText "/proj", [("search_paths", .list [.text "/opt/conf/"])]⟩, []⟩
    let blocked := exampleTree (.directory [named ".config" (.file [])]) []
    (Reads slashed (.ofText ".") layers
        ∧ resolve slashed (.ofText ".") [] =
          .ok { Settings.default with searchPaths := ["/opt/conf"] }
        ∧ checked (layers.table Layer.placePath) =
          .ok { Settings.default with searchPaths := ["/opt/conf/"] })
      ∧ blocked.content? (userFile blocked) = none
      ∧ resolve blocked (.ofText ".") [] = .error (.inaccessible .notDirectory) := by
  intro slashed layers blocked
  have hwell : layers.WellFormed := by
    refine ⟨by decide, by rintro declared ⟨⟩, ?_⟩
    rintro declared ⟨⟩ value ⟨⟩
    exact ⟨_, rfl⟩
  have hreads : Reads slashed (.ofText ".") layers :=
    ⟨startable_exampleTree _ _, .absent rfl,
      .present (nearest_exampleTree _ _) (by cbv) rfl rfl, hwell⟩
  exact ⟨⟨hreads, (resolve_eq_checked hreads).trans (by cbv), by cbv⟩, rfl, rfl⟩

end Configuration

end PropertyLayers
