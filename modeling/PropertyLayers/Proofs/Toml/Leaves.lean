import Mathlib.Data.List.Forall2
import Mathlib.Data.List.Nodup
import PropertyLayers.Proofs.PropertyMap
import PropertyLayers.Proofs.Toml.Distinct
import PropertyLayers.Toml.Flat

/-!
# Leaves of a table

The leaves of a table are its values that are not tables, at any depth, with the keys on the way to
them. To flatten a table is to insert its leaves one after the other (`flattenOver_eq`), although an
inner table is flattened on its own before it is laid over what comes before it. Where no key holds
a point, the joined keys can be split again (`split_key`), so that no two leaves get the same one
(`nodup_keys_leaves`) and every leaf is kept (`flatten_leaves`).
-/

namespace PropertyLayers.Toml

abbrev point : CodePoint := '.'

/-- A value that is not a table, with the keys on the way to it. -/
structure Leaf where
  path : KeyPath
  value : Value

namespace Leaf

def under (key : Text) (leaf : Leaf) : Leaf := { leaf with path := key :: leaf.path }

def key (leaf : Leaf) : Text := Text.join "." leaf.path

/-- The text of the leaf as a property. A list is one leaf, whatever its items are. -/
def text? (leaf : Leaf) : Option Text :=
  match leaf.value with
  | .list items => listText? items
  | value => value.propertyText?

/-- What the leaf is as a property, where `lead` stands before its key. -/
def property? (lead : Text) (leaf : Leaf) : Option (Text × Text) :=
  leaf.text?.map (lead ++ leaf.key, ·)

end Leaf

/-- The leaves of a table in the order of the document. -/
def leaves : Table → List Leaf
  | [] => []
  | (key, .table inner) :: rest => (leaves inner).map (Leaf.under key) ++ leaves rest
  | (key, value) :: rest => ⟨[key], value⟩ :: leaves rest

/-! ## Ways to leaves -/

theorem head_path_mem {t : Table} :
    ∀ leaf ∈ leaves t, ∃ key ∈ Keyed.keys t, ∃ path, leaf.path = key :: path := by
  fun_induction leaves t with
  | case1 => simp
  | case2 key inner rest _ ih =>
    intro leaf hleaf
    rcases List.mem_append.mp hleaf with hleaf | hleaf
    · obtain ⟨below, -, rfl⟩ := List.mem_map.mp hleaf
      exact ⟨key, List.mem_cons_self, below.path, rfl⟩
    · obtain ⟨first, hfirst, path, hpath⟩ := ih leaf hleaf
      exact ⟨first, List.mem_cons_of_mem key hfirst, path, hpath⟩
  | case3 key value rest _ ih =>
    intro leaf hleaf
    rcases List.mem_cons.mp hleaf with rfl | hleaf
    · exact ⟨key, List.mem_cons_self, [], rfl⟩
    · obtain ⟨first, hfirst, path, hpath⟩ := ih leaf hleaf
      exact ⟨first, List.mem_cons_of_mem key hfirst, path, hpath⟩

theorem path_ne_nil {t : Table} {leaf : Leaf} (h : leaf ∈ leaves t) : leaf.path ≠ [] := by
  obtain ⟨key, -, path, hpath⟩ := head_path_mem leaf h
  rw [hpath]
  exact List.cons_ne_nil key path

theorem key_under {leaf : Leaf} (h : leaf.path ≠ []) (key : Text) :
    (leaf.under key).key = key ++ "." ++ leaf.key := by
  obtain ⟨first, path, hpath⟩ := List.exists_cons_of_ne_nil h
  simp [Leaf.under, Leaf.key, hpath, Text.join]

theorem nodup_paths {t : Table} (h : (Value.table t).Distinct) :
    ((leaves t).map Leaf.path).Nodup := by
  fun_induction leaves t with
  | case1 => exact List.nodup_nil
  | case2 key inner rest ihInner ih =>
    obtain ⟨hkeys, hvalues⟩ := Value.distinct_table_iff.mp h
    obtain ⟨hkey, hkeys⟩ := List.nodup_cons.mp hkeys
    obtain ⟨hinner, hvalues⟩ := List.forall_mem_cons.mp hvalues
    have hunder : ((leaves inner).map (Leaf.under key)).map Leaf.path =
        ((leaves inner).map Leaf.path).map (key :: ·) := by
      rw [List.map_map, List.map_map]
      rfl
    rw [List.map_append, hunder]
    refine List.nodup_append.mpr ⟨(ihInner hinner).map (List.cons_injective),
      ih (.table hkeys hvalues), ?_⟩
    rintro _ hpath _ hother rfl
    obtain ⟨path, -, rfl⟩ := List.mem_map.mp hpath
    obtain ⟨leaf, hleaf, heq⟩ := List.mem_map.mp hother
    obtain ⟨first, hfirst, path', hpath'⟩ := head_path_mem leaf hleaf
    cases hpath'.symm.trans heq
    exact hkey hfirst
  | case3 key value rest _ ih =>
    obtain ⟨hkeys, hvalues⟩ := Value.distinct_table_iff.mp h
    obtain ⟨hkey, hkeys⟩ := List.nodup_cons.mp hkeys
    refine List.nodup_cons.mpr ⟨fun hm => ?_,
      ih (.table hkeys (List.forall_mem_cons.mp hvalues).2)⟩
    obtain ⟨leaf, hleaf, heq⟩ := List.mem_map.mp hm
    obtain ⟨first, hfirst, path, hpath⟩ := head_path_mem leaf hleaf
    cases hpath.symm.trans heq
    exact hkey hfirst

/-- Where no key on the way holds a point, the joined keys tell the way. -/
theorem split_key {t : Table} {leaf : Leaf} (hleaf : leaf ∈ leaves t)
    (h : ∀ key ∈ leaf.path, point ∉ key) : Text.split point leaf.key = leaf.path :=
  Text.split_join (path_ne_nil hleaf) h

theorem nodup_keys_leaves {t : Table} (h : (Value.table t).Distinct)
    (hpoint : ∀ leaf ∈ leaves t, ∀ key ∈ leaf.path, point ∉ key) :
    ((leaves t).map Leaf.key).Nodup := by
  have hsplit : ((leaves t).map Leaf.key).map (Text.split point) = (leaves t).map Leaf.path := by
    rw [List.map_map]
    exact List.map_congr_left fun leaf hleaf => split_key hleaf (hpoint leaf hleaf)
  exact .of_map (Text.split point) (hsplit ▸ nodup_paths h)

/-! ## Flattening -/

theorem mapM_congr {α β : Type} {f g : α → Option β} :
    ∀ {as : List α}, (∀ a ∈ as, f a = g a) → as.mapM f = as.mapM g
  | [], _ => rfl
  | a :: as, h => by
    obtain ⟨ha, has⟩ := List.forall_mem_cons.mp h
    rw [List.mapM_cons, List.mapM_cons, ha, mapM_congr has]

theorem mapM_property?_under (t : Table) (lead key : Text) :
    ((leaves t).map (Leaf.under key)).mapM (Leaf.property? lead) =
      (leaves t).mapM (Leaf.property? (lead ++ key ++ ".")) := by
  rw [List.mapM_map]
  refine mapM_congr fun leaf hleaf => ?_
  show leaf.text?.map (lead ++ (leaf.under key).key, ·) = leaf.property? (lead ++ key ++ ".")
  rw [key_under (path_ne_nil hleaf), Leaf.property?]
  simp only [List.append_assoc]

theorem flattenOver_cons_table (lead : Text) (flat : PropertyMap) (key : Text)
    (inner rest : Table) :
    flattenOver lead flat ((key, .table inner) :: rest) =
      (flattenOver (lead ++ key ++ ".") ∅ inner).bind fun below =>
        flattenOver lead (flat.update below) rest := by
  rw [flattenOver.eq_def]
  rfl

theorem flattenOver_cons_plain (lead : Text) (flat : PropertyMap) (key : Text) {value : Value}
    (h : ∀ inner, value ≠ .table inner) (rest : Table) :
    flattenOver lead flat ((key, value) :: rest) =
      (Leaf.text? ⟨[key], value⟩).bind fun text =>
        flattenOver lead (flat.insert (lead ++ key) text) rest := by
  rw [flattenOver.eq_def]
  cases value with
  | table inner => exact absurd rfl (h inner)
  | _ => rfl

/-- The leaves are inserted one after the other, where `lead` stands before each key. -/
theorem flattenOver_eq (t : Table) (lead : Text) (flat : PropertyMap) :
    flattenOver lead flat t =
      ((leaves t).mapM (Leaf.property? lead)).map
        (List.foldl (fun m p => m.insert p.1 p.2) flat) := by
  fun_induction leaves t generalizing lead flat with
  | case1 => simp [flattenOver]
  | case2 key inner rest ihInner ih =>
    rw [flattenOver_cons_table, List.mapM_append, mapM_property?_under, ihInner]
    rcases (leaves inner).mapM (Leaf.property? (lead ++ key ++ ".")) with _ | below
    · rfl
    · have hupdate := PropertyMap.update_foldl_insert flat below ∅
      rw [PropertyMap.update_empty] at hupdate
      rw [Option.map_some, Option.bind_some, hupdate, ih]
      rcases (leaves rest).mapM (Leaf.property? lead) with _ | pairs
      · rfl
      · simp
  | case3 key value rest hvalue ih =>
    rw [flattenOver_cons_plain lead flat key hvalue, List.mapM_cons]
    rcases htext : Leaf.text? ⟨[key], value⟩ with _ | text
    · simp [Leaf.property?, htext]
    · have hproperty : Leaf.property? lead ⟨[key], value⟩ = some (lead ++ key, text) := by
        rw [Leaf.property?, htext]
        rfl
      rw [hproperty, Option.bind_some, ih]
      rcases (leaves rest).mapM (Leaf.property? lead) with _ | pairs
      · rfl
      · rfl

/-! ## What is kept of the leaves -/

theorem mapM_eq_some_iff {α β : Type} {f : α → Option β} :
    ∀ {as : List α} {bs : List β},
      as.mapM f = some bs ↔ List.Forall₂ (fun a b => f a = some b) as bs
  | [], bs => by cases bs <;> simp
  | a :: as, bs => by
    have ih : ∀ {bs}, as.mapM f = some bs ↔ _ := mapM_eq_some_iff
    rw [List.mapM_cons]
    rcases ha : f a with _ | b
    · cases bs <;> simp [ha]
    · rcases has : as.mapM f with _ | bs'
      · cases bs <;> simp [ha, ← ih, has]
      · cases bs <;> simp [ha, ← ih, has]

/-- The pairs are what these leaves are as properties. -/
abbrev Written (ls : List Leaf) (pairs : List (Text × Text)) : Prop :=
  List.Forall₂ (fun leaf p => leaf.property? [] = some p) ls pairs

theorem Written.keys_eq {ls : List Leaf} {pairs : List (Text × Text)} (h : Written ls pairs) :
    Keyed.keys pairs = ls.map Leaf.key := by
  induction h with
  | nil => rfl
  | cons hproperty _ ih =>
    obtain ⟨text, -, rfl⟩ := Option.map_eq_some_iff.mp hproperty
    exact congrArg _ ih

theorem Written.find?_eq {ls : List Leaf} {pairs : List (Text × Text)} (h : Written ls pairs)
    (key : Text) :
    Keyed.find? key pairs = (ls.find? fun leaf => leaf.key = key).bind Leaf.text? := by
  induction h with
  | nil => rfl
  | @cons leaf _ ls _ hproperty _ ih =>
    obtain ⟨text, htext, rfl⟩ := Option.map_eq_some_iff.mp hproperty
    by_cases hkey : leaf.key = key
    · simp [Keyed.find?, hkey, htext]
    · simp [Keyed.find?, hkey, ih]

theorem flatten_eq (t : Table) :
    flatten t = ((leaves t).mapM (Leaf.property? [])).map .ofPairs := by
  have hfold : List.foldl (fun m p => m.insert p.1 p.2) ∅ = PropertyMap.ofPairs :=
    funext fun pairs => (PropertyMap.ofPairs_eq_foldl pairs).symm
  rw [flatten, flattenOver_eq, hfold]

theorem written_of_flatten {t : Table} {flat : PropertyMap} (h : flatten t = some flat) :
    ∃ pairs, Written (leaves t) pairs ∧ flat = .ofPairs pairs := by
  rw [flatten_eq] at h
  obtain ⟨pairs, hpairs, rfl⟩ := Option.map_eq_some_iff.mp h
  exact ⟨pairs, mapM_eq_some_iff.mp hpairs, rfl⟩

theorem find?_key_of_nodup {ls : List Leaf} (h : (ls.map Leaf.key).Nodup) {leaf : Leaf}
    (hleaf : leaf ∈ ls) : (ls.find? fun other => other.key = leaf.key) = some leaf := by
  rcases hfind : ls.find? fun other => other.key = leaf.key with _ | other
  · have hne := List.find?_eq_none.mp hfind leaf hleaf
    simp at hne
  · have hkey : other.key = leaf.key := by simpa using List.find?_some hfind
    have hother : other = leaf :=
      List.inj_on_of_nodup_map h (List.mem_of_find?_eq_some hfind) hleaf hkey
    exact hother ▸ hfind

/-- A table is flattened to the map of its leaves: a key stands where it first comes, with the text
of the last leaf that has it. Where no table holds a key twice, and no key on the way to a leaf
holds a point, every leaf has a key of its own, from which the way is read off again, and all leaves
are kept in their order. -/
theorem flatten_leaves (t : Table) :
    flatten t = ((leaves t).mapM (Leaf.property? [])).map .ofPairs
      ∧ (∀ flat, flatten t = some flat →
        flat.keys = ((leaves t).map Leaf.key).eraseDups
          ∧ ∀ key, flat.get? key =
            ((leaves t).reverse.find? fun leaf => leaf.key = key).bind Leaf.text?)
      ∧ ((Value.table t).Distinct → (∀ leaf ∈ leaves t, ∀ key ∈ leaf.path, point ∉ key) →
        (∀ leaf ∈ leaves t, Text.split point leaf.key = leaf.path)
          ∧ ((leaves t).map Leaf.key).Nodup
          ∧ ∀ flat, flatten t = some flat →
            flat.keys = (leaves t).map Leaf.key ∧ flat.keys.length = (leaves t).length
              ∧ ∀ leaf ∈ leaves t, flat.get? leaf.key = leaf.text?) := by
  have hkept : ∀ flat, flatten t = some flat → flat.keys = ((leaves t).map Leaf.key).eraseDups
      ∧ ∀ key, flat.get? key =
        ((leaves t).reverse.find? fun leaf => leaf.key = key).bind Leaf.text? := by
    intro flat hflat
    obtain ⟨pairs, hwritten, rfl⟩ := written_of_flatten hflat
    refine ⟨by rw [PropertyMap.keys_ofPairs, hwritten.keys_eq], fun key => ?_⟩
    have hreverse : Written (leaves t).reverse pairs.reverse :=
      List.forall₂_reverse_iff.mpr hwritten
    rw [PropertyMap.get?_ofPairs, hreverse.find?_eq]
  refine ⟨flatten_eq t, hkept, fun hdistinct hpoint => ?_⟩
  have hnodup := nodup_keys_leaves hdistinct hpoint
  refine ⟨fun leaf hleaf => split_key hleaf (hpoint leaf hleaf), hnodup, fun flat hflat => ?_⟩
  obtain ⟨hkeys, hget⟩ := hkept flat hflat
  rw [PropertyMap.eraseDups_of_nodup hnodup] at hkeys
  refine ⟨hkeys, by rw [hkeys, List.length_map], fun leaf hleaf => ?_⟩
  have hreverse : ((leaves t).reverse.map Leaf.key).Nodup := by
    rw [List.map_reverse]
    exact List.nodup_reverse.mpr hnodup
  rw [hget, find?_key_of_nodup hreverse (List.mem_reverse.mpr hleaf), Option.bind_some]

def emptyKeyed : Table :=
  [("", .table [("", .list [.text "a", .bool true]), ("b", .table [("", .text "c")])]),
    ("d", .bool false)]

theorem leaves_emptyKeyed : leaves emptyKeyed =
    [⟨["", ""], .list [.text "a", .bool true]⟩, ⟨["", "b", ""], .text "c"⟩,
      ⟨["d"], .bool false⟩] := by
  simp [leaves, emptyKeyed, Leaf.under]

theorem distinct_emptyKeyed : (Value.table emptyKeyed).Distinct := by
  simp only [emptyKeyed, Value.distinct_table_iff, Value.distinct_list_iff, List.forall_mem_cons]
  have hplain : ∀ {value : Value}, Draft.isNested value = false → value.Distinct := .plain
  refine ⟨by decide, ⟨by decide, ⟨hplain rfl, hplain rfl, by simp⟩,
    ⟨by decide, hplain rfl, by simp⟩, by simp⟩, hplain rfl, by simp⟩

theorem flatten_leaves_emptyKeyed :
    (Value.table emptyKeyed).Distinct
      ∧ (∀ leaf ∈ leaves emptyKeyed, ∀ key ∈ leaf.path, point ∉ key)
      ∧ ∃ flat, flatten emptyKeyed = some flat ∧ flat.keys = [".", ".b.", "d"]
        ∧ flat.get? "." = some "a,true" := by
  have hpoint : ∀ leaf ∈ leaves emptyKeyed, ∀ key ∈ leaf.path, point ∉ key := by
    rw [leaves_emptyKeyed]
    decide
  obtain ⟨hflatten, -, hkept⟩ := flatten_leaves emptyKeyed
  obtain ⟨-, -, hflat⟩ := hkept distinct_emptyKeyed hpoint
  rw [leaves_emptyKeyed] at hflatten hflat
  obtain ⟨hkeys, -, hget⟩ := hflat _ hflatten
  exact ⟨distinct_emptyKeyed, hpoint, _, hflatten, hkeys, hget _ List.mem_cons_self⟩

end PropertyLayers.Toml
