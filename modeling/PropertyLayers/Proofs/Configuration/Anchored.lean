import PropertyLayers.Configuration.Layer
import PropertyLayers.Proofs.Record.Faults

/-!
# Search paths seen from a directory

Seen from a directory a layer keeps its keys, and of its values only the search paths change
(`exists_anchorSearchPaths`). A path of no text becomes the directory, and a relative path takes
over the surrogates of the directory (`hasSurrogate_toText_append`). So what the check of settings
says of the texts of paths may change, and nothing else (`found_anchored`).
-/

namespace PropertyLayers

namespace Layer

/-- The search paths of the layer, if it has any, are a list. -/
def ListsPaths (layer : Table) : Prop :=
  ∀ value, Keyed.find? searchPathsKey layer = some value → ∃ items, value = .list items

/-- One of the search paths is a text of this kind. -/
def HasPath (layer : Table) (kind : Text → Prop) : Prop :=
  ∃ items t, Keyed.find? searchPathsKey layer = some (.list items) ∧ Value.text t ∈ items ∧ kind t

def HasEmptyPath (layer : Table) : Prop := HasPath layer (· = [])

def HasRelativePath (layer : Table) : Prop :=
  HasPath layer fun t => (FilePath.ofText t).anchor = .relative

/-- The value of a key, where each of the search paths is changed. -/
def withPaths (change : Value → Value) (key : Text) (value : Value) : Value :=
  match value with
  | .list items => if key = searchPathsKey then .list (items.map change) else value
  | _ => value

variable {change : Value → Value} {layer : Table}

theorem withPaths_of_ne {key : Text} (h : key ≠ searchPathsKey) (value : Value) :
    withPaths change key value = value := by
  cases value <;> simp [withPaths, h]

theorem withPaths_searchPaths (items : List Value) :
    withPaths change searchPathsKey (.list items) = .list (items.map change) := by
  simp [withPaths]

theorem exists_anchorSearchPaths (base : FilePath) (h : ListsPaths layer) :
    ∃ anchored, anchorSearchPaths base layer = .ok anchored
      ∧ Keyed.keys anchored = Keyed.keys layer
      ∧ ∀ key, Keyed.find? key anchored =
        (Keyed.find? key layer).map (withPaths (anchorPath base) key) := by
  rcases hfind : Keyed.find? searchPathsKey layer with _ | value
  · refine ⟨layer, by rw [anchorSearchPaths, hfind], rfl, fun key => ?_⟩
    by_cases hkey : key = searchPathsKey
    · rw [hkey, hfind]
      rfl
    · rcases Keyed.find? key layer with _ | value
      · rfl
      · rw [Option.map_some, withPaths_of_ne hkey]
  · obtain ⟨items, rfl⟩ := h value hfind
    refine ⟨_, by rw [anchorSearchPaths, hfind], Keyed.keys_put_of_mem ?_, fun key => ?_⟩
    · exact Keyed.find?_isSome_iff.mp (by rw [hfind]; rfl)
    · rw [Keyed.find?_put]
      by_cases hkey : searchPathsKey = key
      · rw [← hkey, hfind, if_pos rfl, Option.map_some, withPaths_searchPaths]
      · rw [if_neg hkey]
        rcases Keyed.find? key layer with _ | value
        · rfl
        · rw [Option.map_some, withPaths_of_ne (Ne.symm hkey)]

theorem listsPaths_anchored {base : FilePath} {anchored : Table} (h : ListsPaths layer)
    (hfind : ∀ key, Keyed.find? key anchored =
      (Keyed.find? key layer).map (withPaths (anchorPath base) key)) : ListsPaths anchored := by
  intro value hvalue
  rw [hfind] at hvalue
  obtain ⟨original, horiginal, rfl⟩ := Option.map_eq_some_iff.mp hvalue
  obtain ⟨items, rfl⟩ := h original horiginal
  exact ⟨_, withPaths_searchPaths items⟩

end Layer

/-! ## Texts of paths -/

namespace FilePath

/-- Whether a segment holds a surrogate. -/
def hasSurrogate (path : FilePath) : Bool := path.segments.any Text.hasSurrogate

theorem isSegment_of_hasSurrogate {part : Text} (h : part.hasSurrogate) : isSegment part := by
  simp only [isSegment, Bool.and_eq_true, Bool.not_eq_true', decide_eq_true_eq]
  constructor
  · rcases part with _ | _
    · cases h
    · rfl
  · rintro rfl
    revert h
    decide

/-- The segments that are dropped when a text is read as a path hold no surrogates. -/
theorem hasSurrogate_ofText (t : Text) : (ofText t).hasSurrogate = t.hasSurrogate := by
  have hslash : Text.hasSurrogate [slash] = false := by decide
  have hparts : (t.split slash).any Text.hasSurrogate = t.hasSurrogate := by
    rw [← Text.hasSurrogate_join hslash, Text.join_split]
  rw [← hparts, hasSurrogate, ofText, List.any_filter]
  refine congrArg (List.any _) (funext fun part => ?_)
  rcases hpart : part.hasSurrogate with _ | _
  · exact Bool.and_false _
  · rw [isSegment_of_hasSurrogate hpart, Bool.and_true]

theorem hasSurrogate_toText (path : FilePath) :
    path.toText.hasSurrogate = path.hasSurrogate := by
  have hslash : Text.hasSurrogate [slash] = false := by decide
  have hanchor : ∀ anchor, (anchorText anchor).hasSurrogate = false := by
    rintro (_ | _ | _) <;> decide
  unfold toText hasSurrogate
  split
  · next hsegments =>
    rw [hsegments]
    rfl
  · rw [Text.hasSurrogate_append, hanchor, Text.hasSurrogate_join hslash, Bool.false_or]

theorem hasSurrogate_toText_append (base : FilePath) (t : Text) :
    (base ++ ofText t).toText.hasSurrogate ↔
      t.hasSurrogate ∨ base.hasSurrogate ∧ (ofText t).anchor = .relative := by
  rw [hasSurrogate_toText, ← hasSurrogate_ofText t]
  show (append base (ofText t)).hasSurrogate ↔ _
  unfold append
  split
  · next h => simp [hasSurrogate, h, or_comm]
  · next h => simp [show (ofText t).anchor ≠ .relative from h]

/-- A path that is seen from an anchored one has a text. -/
theorem toText_append_ne_nil {base : FilePath} (h : base.anchor ≠ .relative) (path : FilePath) :
    (base ++ path).toText ≠ [] := by
  show (append base path).toText ≠ []
  rcases base with ⟨_ | _ | _, above⟩
  · exact absurd rfl h
  all_goals
    rcases path with ⟨_ | _ | _, segments⟩ <;> simp [append, toText, anchorText, Text.ofString]

end FilePath

namespace Settings

variable {codecs : Codecs}

/-- The faults of the search paths. -/
def pathsFaults (fields : Table) : List RecordFault :=
  (Check.field Layer.searchPathsKey (some []) (Check.items (Check.longText 1) 0) fields).found

/-- What the check says of each field, and of fields that there are not. -/
theorem found_checkWith (fields : Table) :
    (checkWith codecs (.table fields)).found =
      (Check.field "default_suffix" (some defaultSuffix) checkSuffix fields).found
        ++ (Check.field "encoding" (some defaultEncoding) (checkEncoding codecs) fields).found
        ++ pathsFaults fields
        ++ (Check.field "ignore_unresolvable_placeholders" (some false) Check.strictBool
          fields).found
        ++ (Check.noOthers ["default_suffix", "encoding", Layer.searchPathsKey,
          "ignore_unresolvable_placeholders"] fields).found := by
  simp only [checkWith, Check.record, Checked.found_seqLeft, Checked.found_seq, Checked.found_map]
  rfl

theorem honest_checkSuffix (value : Value) : (checkSuffix value).Honest := by
  refine (Check.honest_longText 2 value).andThen fun t => ?_
  split
  · exact fun _ => ⟨t, rfl⟩
  · exact Checked.honest_fault _

theorem honest_checkEncoding (codecs : Codecs) (value : Value) :
    (checkEncoding codecs value).Honest := by
  refine (Check.honest_longText 1 value).andThen fun t => ?_
  split
  · exact Checked.honest_fault _
  split
  · exact fun _ => ⟨t, rfl⟩
  · exact Checked.honest_fault _

theorem honest_checkWith (fields : Table) : (checkWith codecs (.table fields)).Honest := by
  have hsuffix := Check.honest_field honest_checkSuffix "default_suffix" defaultSuffix fields
  have hencoding := Check.honest_field (honest_checkEncoding codecs) "encoding" defaultEncoding
    fields
  have hpaths := Check.honest_field (Check.honest_items (Check.longText 1) 0) "search_paths" []
    fields
  have hlenient := Check.honest_field Check.honest_strictBool "ignore_unresolvable_placeholders"
    false fields
  exact ((((hsuffix.map Settings.mk).seq hencoding).seq hpaths).seq hlenient).seqLeft
    (Check.honest_noOthers _ fields)

end Settings

/-! ## Faults of the texts of paths -/

/-- The fault is one of the text of a search path: it is empty, or holds a surrogate. -/
def RecordFault.isOfPath (fault : RecordFault) : Bool :=
  match fault.place with
  | [.field name, .item _] =>
    name = Layer.searchPathsKey && (fault.kind = .textTooShort || fault.kind = .notUnicode)
  | _ => false

theorem Check.not_isOfPath_of_mem_field {α : Type} {name : Text} {default : α} {check : Check α}
    {fields : Table} {fault : RecordFault} (hname : name ≠ Layer.searchPathsKey)
    (h : fault ∈ (Check.field name (some default) check fields).found) :
    fault.isOfPath = false := by
  obtain ⟨place, hplace⟩ := Check.place_of_mem_field h
  simp only [RecordFault.isOfPath, hplace]
  split
  · next h =>
    cases h
    simp [hname]
  · rfl

theorem Check.not_isOfPath_of_mem_noOthers {names : List Text} {fields : Table}
    {fault : RecordFault} (h : fault ∈ (Check.noOthers names fields).found) :
    fault.isOfPath = false := by
  rw [Check.found_noOthers] at h
  obtain ⟨name, -, rfl⟩ := List.mem_map.mp h
  rfl

namespace Settings

variable {codecs : Codecs} {base : FilePath} {layer anchored : Table}

/-- The faults of a search path at its place in the list. -/
def pathFaults (i : Nat) (v : Value) : List RecordFault :=
  (((Check.longText 1 v).inside (.item i)).inside (.field Layer.searchPathsKey)).found

theorem pathFaults_text (i : Nat) (t : Text) :
    pathFaults i (.text t) =
      if t.hasSurrogate then [⟨[.field Layer.searchPathsKey, .item i], .notUnicode⟩]
      else if t = [] then [⟨[.field Layer.searchPathsKey, .item i], .textTooShort⟩]
      else [] := by
  by_cases hcharacters : t.hasSurrogate
  · simp [pathFaults, Check.longText, hcharacters, Checked.fault, Checked.inside, Checked.found]
  · by_cases hempty : t = []
    · rw [hempty]
      rfl
    · simp [pathFaults, Check.longText, hcharacters, hempty, Checked.inside, Checked.found]

theorem filter_pathFaults (i : Nat) (v : Value) :
    (pathFaults i (Layer.anchorPath base v)).filter (!·.isOfPath) =
      (pathFaults i v).filter (!·.isOfPath) := by
  have hnone : ∀ t : Text, (pathFaults i (.text t)).filter (!·.isOfPath) = [] := by
    intro t
    rw [pathFaults_text]
    split
    · rfl
    split <;> rfl
  cases v
  case text t => rw [Layer.anchorPath, hnone, hnone]
  all_goals rfl

theorem exists_isOfPath_pathFaults_iff (i : Nat) (v : Value) :
    (∃ fault ∈ pathFaults i v, fault.isOfPath) ↔
      ∃ t, v = .text t ∧ (t.hasSurrogate ∨ t = []) := by
  cases v
  case text t =>
    rw [pathFaults_text]
    by_cases hcharacters : t.hasSurrogate
    · simp [hcharacters, RecordFault.isOfPath]
    · by_cases hempty : t = []
      · simp [hempty, show Text.hasSurrogate [] = false from rfl, RecordFault.isOfPath]
      · simp [hcharacters, hempty]
  all_goals simp [pathFaults, Check.longText, Checked.fault, Checked.inside, Checked.found,
    RecordFault.isOfPath]

theorem pathsFaults_eq {items : List Value}
    (h : Keyed.find? Layer.searchPathsKey layer = some (.list items)) :
    pathsFaults layer = items.zipIdx.flatMap fun (v, i) => pathFaults i v := by
  simp only [pathsFaults, Check.field, h, Checked.found_inside, Check.found_items,
    List.map_flatMap, pathFaults]

theorem exists_isOfPath_pathsFaults_iff (hlists : Layer.ListsPaths layer) :
    (∃ fault ∈ pathsFaults layer, fault.isOfPath) ↔
      Layer.HasPath layer fun t => t.hasSurrogate ∨ t = [] := by
  rcases hvalue : Keyed.find? Layer.searchPathsKey layer with _ | value
  · simp [pathsFaults, Check.field, hvalue, Checked.found, Layer.HasPath]
  · obtain ⟨items, rfl⟩ := hlists value hvalue
    rw [pathsFaults_eq hvalue]
    constructor
    · rintro ⟨fault, hm, hpath⟩
      obtain ⟨⟨v, i⟩, hp, hm⟩ := List.mem_flatMap.mp hm
      obtain ⟨t, rfl, ht⟩ := (exists_isOfPath_pathFaults_iff i v).mp ⟨fault, hm, hpath⟩
      exact ⟨items, t, hvalue, List.fst_mem_of_mem_zipIdx hp, ht⟩
    · rintro ⟨items', t, hvalue', hm, ht⟩
      cases hvalue.symm.trans hvalue'
      obtain ⟨i, hget⟩ := List.mem_iff_getElem?.mp hm
      obtain ⟨fault, hfault, hpath⟩ := (exists_isOfPath_pathFaults_iff i _).mpr ⟨t, rfl, ht⟩
      have hp := List.mk_mem_zipIdx_iff_getElem?.mpr hget
      exact ⟨fault, List.mem_flatMap.mpr ⟨_, hp, hfault⟩, hpath⟩

theorem exists_isOfPath_iff (codecs : Codecs) (hlists : Layer.ListsPaths layer) :
    (∃ fault ∈ (checkWith codecs (.table layer)).found, fault.isOfPath) ↔
      Layer.HasPath layer fun t => t.hasSurrogate ∨ t = [] := by
  rw [← exists_isOfPath_pathsFaults_iff hlists, found_checkWith]
  constructor
  · rintro ⟨fault, hm, hpath⟩
    simp only [List.mem_append] at hm
    rcases hm with (((hm | hm) | hm) | hm) | hm
    · rw [Check.not_isOfPath_of_mem_field (by decide) hm] at hpath
      cases hpath
    · rw [Check.not_isOfPath_of_mem_field (by decide) hm] at hpath
      cases hpath
    · exact ⟨fault, hm, hpath⟩
    · rw [Check.not_isOfPath_of_mem_field (by decide) hm] at hpath
      cases hpath
    · rw [Check.not_isOfPath_of_mem_noOthers hm] at hpath
      cases hpath
  · rintro ⟨fault, hm, hpath⟩
    exact ⟨fault, by simp [hm], hpath⟩

theorem found_anchored (codecs : Codecs) (hlists : Layer.ListsPaths layer)
    (hkeys : Keyed.keys anchored = Keyed.keys layer)
    (hfind : ∀ key, Keyed.find? key anchored =
      (Keyed.find? key layer).map (Layer.withPaths (Layer.anchorPath base) key)) :
    (checkWith codecs (.table anchored)).found.filter (!·.isOfPath) =
      (checkWith codecs (.table layer)).found.filter (!·.isOfPath) := by
  have hsame : ∀ {α : Type} {name : Text} (default : α) (check : Check α),
      name ≠ Layer.searchPathsKey →
        (Check.field name (some default) check anchored).found =
          (Check.field name (some default) check layer).found := by
    intro α name default check hname
    rw [Check.field, Check.field, hfind]
    rcases Keyed.find? name layer with _ | value
    · rfl
    · rw [Option.map_some, Layer.withPaths_of_ne hname]
  have hpaths : (pathsFaults anchored).filter (!·.isOfPath) =
      (pathsFaults layer).filter (!·.isOfPath) := by
    rcases hvalue : Keyed.find? Layer.searchPathsKey layer with _ | value
    · rw [pathsFaults, pathsFaults, Check.field, Check.field, hfind, hvalue]
      rfl
    · obtain ⟨items, rfl⟩ := hlists value hvalue
      have hanchored := hfind Layer.searchPathsKey
      rw [hvalue, Option.map_some, Layer.withPaths_searchPaths] at hanchored
      rw [pathsFaults_eq hvalue, pathsFaults_eq hanchored, List.zipIdx_map, List.flatMap_map,
        List.filter_flatMap, List.filter_flatMap]
      exact List.flatMap_congr fun p _ => filter_pathFaults p.2 p.1
  have hothers : ∀ names, (Check.noOthers names anchored).found =
      (Check.noOthers names layer).found := by
    intro names
    rw [Check.found_noOthers, Check.found_noOthers, hkeys]
  rw [found_checkWith, found_checkWith, hsame _ _ (by decide), hsame _ _ (by decide),
    hsame _ _ (by decide), hothers]
  simp only [List.filter_append, hpaths]

/-! ## Layers that are accepted -/

/-- The layer by itself makes settings. -/
def Accepts (codecs : Codecs) (layer : Table) : Prop :=
  ∃ settings, checkWith codecs (.table layer) = .ok settings

theorem accepts_iff : Accepts codecs layer ↔ (checkWith codecs (.table layer)).found = [] :=
  Checked.exists_ok_iff (honest_checkWith layer)

/-- A layer is accepted if neither the texts of its paths are at fault nor anything else. -/
theorem accepts_iff_paths (hlists : Layer.ListsPaths layer) :
    Accepts codecs layer ↔
      (checkWith codecs (.table layer)).found.filter (!·.isOfPath) = []
        ∧ ¬ Layer.HasPath layer fun t => t.hasSurrogate ∨ t = [] := by
  rw [accepts_iff, ← exists_isOfPath_iff codecs hlists, List.filter_eq_nil_iff]
  constructor
  · intro h
    simp [h]
  · rintro ⟨hothers, hnone⟩
    refine List.eq_nil_iff_forall_not_mem.mpr fun fault hm => ?_
    have hpath := hothers fault hm
    exact hnone ⟨fault, hm, by simpa using hpath⟩

theorem hasPath_anchored_iff (hbase : base.anchor ≠ .relative) (hlists : Layer.ListsPaths layer)
    (hfind : ∀ key, Keyed.find? key anchored =
      (Keyed.find? key layer).map (Layer.withPaths (Layer.anchorPath base) key)) :
    (Layer.HasPath anchored fun t => t.hasSurrogate ∨ t = []) ↔
      Layer.HasPath layer fun t =>
        t.hasSurrogate ∨ base.hasSurrogate ∧ (FilePath.ofText t).anchor = .relative := by
  have hpath (t : Text) : ((base ++ FilePath.ofText t).toText.hasSurrogate
        ∨ (base ++ FilePath.ofText t).toText = []) ↔
      t.hasSurrogate ∨ base.hasSurrogate ∧ (FilePath.ofText t).anchor = .relative := by
    rw [FilePath.hasSurrogate_toText_append, or_iff_left]
    exact FilePath.toText_append_ne_nil hbase _
  rcases hvalue : Keyed.find? Layer.searchPathsKey layer with _ | value
  · simp [Layer.HasPath, hfind, hvalue]
  · obtain ⟨items, rfl⟩ := hlists value hvalue
    simp only [Layer.HasPath, hfind, hvalue, Option.map_some, Layer.withPaths_searchPaths,
      Option.some.injEq, Value.list.injEq, exists_and_left, exists_eq_left', List.mem_map]
    constructor
    · rintro ⟨t, ⟨v, hv, hv'⟩, ht⟩
      cases v
      case text t' =>
        cases hv'
        exact ⟨t', hv, (hpath t').mp ht⟩
      all_goals cases hv'
    · rintro ⟨t, hm, ht⟩
      exact ⟨_, ⟨.text t, hm, rfl⟩, (hpath t).mpr ht⟩

/-- Seen from an anchored directory a layer has the faults that it has by itself, but for those of
the texts of paths. So the two are accepted alike, with two exceptions. A layer with an empty path
is refused by itself alone, and one with a relative path only from a directory that holds a
surrogate. -/
theorem accepts_anchored_iff (codecs : Codecs) (hbase : base.anchor ≠ .relative)
    (hlists : Layer.ListsPaths layer) :
    ∃ anchored, Layer.anchorSearchPaths base layer = .ok anchored
      ∧ (Accepts codecs layer ∧ ¬ (base.hasSurrogate ∧ Layer.HasRelativePath layer) ↔
        Accepts codecs anchored ∧ ¬ Layer.HasEmptyPath layer)
      ∧ (checkWith codecs (.table anchored)).found.filter (!·.isOfPath) =
        (checkWith codecs (.table layer)).found.filter (!·.isOfPath) := by
  obtain ⟨anchored, hanchored, hkeys, hfind⟩ := Layer.exists_anchorSearchPaths base hlists
  have hfound := found_anchored codecs hlists hkeys hfind
  refine ⟨anchored, hanchored, ?_, hfound⟩
  rw [accepts_iff_paths hlists, accepts_iff_paths (Layer.listsPaths_anchored hlists hfind), hfound,
    hasPath_anchored_iff hbase hlists hfind]
  have hor (p q : Text → Prop) : (Layer.HasPath layer fun t => p t ∨ q t) ↔
      Layer.HasPath layer p ∨ Layer.HasPath layer q := by
    simp only [Layer.HasPath, and_or_left, exists_or]
  have hand (p : Prop) (q : Text → Prop) : (Layer.HasPath layer fun t => p ∧ q t) ↔
      p ∧ Layer.HasPath layer q := by
    simp only [Layer.HasPath, exists_and_left, and_left_comm]
  rw [hor, hor, hand, Layer.HasRelativePath, Layer.HasEmptyPath]
  tauto

/-- A path, an empty path and a number to search, and a field that settings do not have. -/
def oddLayer : Table :=
  [("search_paths", .list [.text "res", .text [], .int 1]), ("extra", .int 1)]

def projectDirectory : FilePath := .ofText "/proj"

theorem accepts_anchored_iff_oddLayer :
    projectDirectory.anchor ≠ .relative ∧ Layer.ListsPaths oddLayer
      ∧ ∃ anchored, Layer.anchorSearchPaths projectDirectory oddLayer = .ok anchored
        ∧ (Accepts .builtIn oddLayer
            ∧ ¬ (projectDirectory.hasSurrogate ∧ Layer.HasRelativePath oddLayer) ↔
          Accepts .builtIn anchored ∧ ¬ Layer.HasEmptyPath oddLayer)
        ∧ (checkWith .builtIn (.table anchored)).found.filter (!·.isOfPath) =
          (checkWith .builtIn (.table oddLayer)).found.filter (!·.isOfPath) := by
  have hbase : projectDirectory.anchor ≠ .relative := by decide
  have hlists : Layer.ListsPaths oddLayer := by
    rintro value ⟨⟩
    exact ⟨_, rfl⟩
  exact ⟨hbase, hlists, accepts_anchored_iff .builtIn hbase hlists⟩

/-- A layer that is refused for an empty path alone is accepted from a directory. -/
theorem accepts_anchored_emptyPath :
    let layer : Table := [("search_paths", .list [.text []])]
    ¬ Accepts .builtIn layer ∧ ∃ anchored,
      Layer.anchorSearchPaths projectDirectory layer = .ok anchored
        ∧ Accepts .builtIn anchored := by
  intro layer
  have hfound : (checkWith .builtIn (.table layer)).found =
      [⟨[.field "search_paths", .item 0], .textTooShort⟩] := by decide +kernel
  refine ⟨?_, [("search_paths", .list [.text "/proj"])], by cbv, _, by cbv⟩
  rw [accepts_iff, hfound]
  simp

end Settings

end PropertyLayers
