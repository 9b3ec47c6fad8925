/-!
# Texts

A text is a list of code points, surrogates included: an escape such as `\uD83D` stands for one
code point on its own, which `Char` has no room for.

Cutting a text at a separator loses nothing (`join_split`), and a part holds no separator
(`not_mem_of_mem_split`). Parts without a separator come back from what they are joined to
(`split_join`).
-/

namespace PropertyLayers

/-- A Unicode code point, surrogates included. -/
structure CodePoint where
  val : Nat
  lt_bound : val < 0x110000
deriving DecidableEq

namespace CodePoint

@[ext] theorem ext {a b : CodePoint} (h : a.val = b.val) : a = b := by
  cases a; cases b; simpa using h

def ofChar (c : Char) : CodePoint :=
  ⟨c.toNat, by
    have h : c.val.toNat < 0xd800 ∨ 0xdfff < c.val.toNat ∧ c.val.toNat < 0x110000 := c.valid
    show c.val.toNat < 0x110000
    omega⟩

instance : Coe Char CodePoint := ⟨ofChar⟩

@[simp] theorem ofChar_inj {a b : Char} : ofChar a = ofChar b ↔ a = b :=
  ⟨fun h => Char.toNat_inj.mp (congrArg val h), fun h => h ▸ rfl⟩

/-- The code point of this number; U+FFFD where there is none. -/
def ofNat (n : Nat) : CodePoint :=
  if h : n < 0x110000 then ⟨n, h⟩ else ⟨0xFFFD, by decide⟩

@[simp] theorem ofNat_val (c : CodePoint) : ofNat c.val = c := by
  simp [ofNat, c.lt_bound]

def isSurrogate (c : CodePoint) : Bool := 0xD800 ≤ c.val && c.val ≤ 0xDFFF

/-- The code points that `low` and `high` enclose. -/
def between (low high : Char) (c : CodePoint) : Bool := low.toNat ≤ c.val && c.val ≤ high.toNat

def isDigit : CodePoint → Bool := between '0' '9'

def isLetter (c : CodePoint) : Bool := between 'a' 'z' c || between 'A' 'Z' c

/-- The value of a hexadecimal digit, of either case. -/
def hexDigit? (c : CodePoint) : Option Nat :=
  if between '0' '9' c then some (c.val - '0'.toNat)
  else if between 'a' 'f' c then some (c.val - 'a'.toNat + 10)
  else if between 'A' 'F' c then some (c.val - 'A'.toNat + 10)
  else none

/-- ASCII capitals become small letters; nothing else changes. -/
def toLower (c : CodePoint) : CodePoint := if between 'A' 'Z' c then ofNat (c.val + 32) else c

end CodePoint

abbrev Text := List CodePoint

namespace Text

def ofString (s : String) : Text := s.toList.map CodePoint.ofChar

instance : Coe String Text := ⟨ofString⟩

def ofNat (n : Nat) : Text := ofString (toString n)

def ofInt (n : Int) : Text := ofString (toString n)

/-- The parts between the separators; one more than there are separators. -/
def split (separator : CodePoint) : Text → List Text
  | [] => [[]]
  | c :: rest =>
    if c = separator then [] :: split separator rest
    else match split separator rest with
      | [] => [[c]]
      | part :: parts => (c :: part) :: parts

def join (separator : Text) : List Text → Text
  | [] => []
  | [part] => part
  | part :: parts => part ++ separator ++ join separator parts

/-- What stands before and after the first separator. -/
def cut? (separator : CodePoint) : Text → Option (Text × Text)
  | [] => none
  | c :: rest =>
    if c = separator then some ([], rest)
    else (cut? separator rest).map fun (before, after) => (c :: before, after)

/-- What stands before and after the last separator. -/
def cutLast? (separator : CodePoint) : Text → Option (Text × Text)
  | [] => none
  | c :: rest =>
    match cutLast? separator rest with
    | some (before, after) => some (c :: before, after)
    | none => if c = separator then some ([], rest) else none

/-- What follows `start` in a text that begins with it. -/
def afterStart? (start t : Text) : Option Text := start.isPrefixOf? t

/-- Whether `part` stands somewhere in the text. -/
def holds (part : Text) : Text → Bool
  | [] => part.isEmpty
  | c :: rest => part.isPrefixOf (c :: rest) || holds part rest

def dropLeading (c : CodePoint) (t : Text) : Text := t.dropWhile fun d => d = c

def replace (old new : CodePoint) (t : Text) : Text := t.map fun c => if c = old then new else c

def hasSurrogate (t : Text) : Bool := t.any CodePoint.isSurrogate

/-- The number that the hexadecimal digits write, if all are digits. -/
def hexValue? (digits : Text) : Option Nat :=
  digits.foldlM (fun n c => c.hexDigit?.map (n * 16 + ·)) 0

/-- The value in lower-case hexadecimal digits, `width` of them. -/
def hex (width : Nat) (n : Nat) : Text :=
  let digits := Nat.toDigits 16 n
  (List.replicate (width - digits.length) '0' ++ digits).map CodePoint.ofChar

theorem hasSurrogate_append (s t : Text) :
    (s ++ t).hasSurrogate = (s.hasSurrogate || t.hasSurrogate) :=
  List.any_append

theorem hasSurrogate_join {separator : Text} (h : separator.hasSurrogate = false) :
    ∀ parts : List Text, (join separator parts).hasSurrogate = parts.any hasSurrogate
  | [] => rfl
  | [part] => by simp [join]
  | part :: next :: parts => by
    have ih := hasSurrogate_join h (next :: parts)
    show (part ++ separator ++ join separator (next :: parts)).hasSurrogate = _
    rw [hasSurrogate_append, hasSurrogate_append, h, Bool.or_false, ih]
    rfl

theorem split_ne_nil (separator : CodePoint) : ∀ t, split separator t ≠ []
  | [] => by simp [split]
  | c :: rest => by
    simp only [split]
    split
    · simp
    · split <;> simp

theorem join_split (separator : CodePoint) : ∀ t, join [separator] (split separator t) = t
  | [] => rfl
  | c :: rest => by
    have ih := join_split separator rest
    simp only [split]
    split
    · rename_i h
      rcases hs : split separator rest with _ | ⟨part, parts⟩
      · exact absurd hs (split_ne_nil separator rest)
      · rw [hs] at ih
        simp [join, ih, h]
    · rcases hs : split separator rest with _ | ⟨part, parts⟩
      · exact absurd hs (split_ne_nil separator rest)
      · rw [hs] at ih
        cases parts with
        | nil => simpa [join] using ih
        | cons p ps => simpa [join] using ih

theorem not_mem_of_mem_split {separator : CodePoint} :
    ∀ {t part : Text}, part ∈ split separator t → separator ∉ part
  | [], part, h => by
    simp only [split, List.mem_singleton] at h
    simp [h]
  | c :: rest, part, h => by
    simp only [split] at h
    split at h
    · rcases List.mem_cons.mp h with rfl | h
      · simp
      · exact not_mem_of_mem_split h
    · rename_i hc
      rcases hs : split separator rest with _ | ⟨first, others⟩
      · exact absurd hs (split_ne_nil separator rest)
      · rw [hs] at h
        rcases List.mem_cons.mp h with rfl | h
        · have := not_mem_of_mem_split (hs ▸ List.mem_cons_self : first ∈ split separator rest)
          simp [this, Ne.symm hc]
        · exact not_mem_of_mem_split (hs ▸ List.mem_cons_of_mem first h)

theorem split_of_not_mem {separator : CodePoint} :
    ∀ {part : Text}, separator ∉ part → split separator part = [part]
  | [], _ => rfl
  | c :: rest, h => by
    simp only [List.mem_cons, not_or] at h
    simp [split, Ne.symm h.1, split_of_not_mem h.2]

theorem split_append {separator : CodePoint} (rest : Text) :
    ∀ {part : Text}, separator ∉ part →
      split separator (part ++ separator :: rest) = part :: split separator rest
  | [], _ => by simp [split]
  | c :: part, h => by
    simp only [List.mem_cons, not_or] at h
    simp [split, Ne.symm h.1, split_append rest h.2]

theorem split_join {separator : CodePoint} :
    ∀ {parts : List Text}, parts ≠ [] → (∀ part ∈ parts, separator ∉ part) →
      split separator (join [separator] parts) = parts
  | [part], _, h => split_of_not_mem (h part List.mem_cons_self)
  | part :: next :: parts, _, h => by
    have ih := split_join (List.cons_ne_nil next parts) fun p hp => h p (List.mem_cons_of_mem part hp)
    rw [join, List.append_assoc, List.singleton_append, split_append _ (h part List.mem_cons_self),
      ih]
    exact List.cons_ne_nil next parts

theorem cut?_append {separator : CodePoint} (after : Text) :
    ∀ {before : Text}, separator ∉ before →
      cut? separator (before ++ separator :: after) = some (before, after)
  | [], _ => by simp [cut?]
  | c :: before, h => by
    simp only [List.mem_cons, not_or] at h
    simp [cut?, Ne.symm h.1, cut?_append after h.2]

theorem append_of_cut? {separator : CodePoint} :
    ∀ {t before after : Text}, cut? separator t = some (before, after) →
      t = before ++ separator :: after
  | c :: rest, before, after, h => by
    simp only [cut?] at h
    split at h
    · rename_i hc
      cases h
      rw [hc, List.nil_append]
    · obtain ⟨⟨start, _⟩, hs, he⟩ := Option.map_eq_some_iff.mp h
      cases he
      rw [append_of_cut? hs, List.cons_append]

theorem cutLast?_eq_none_iff {separator : CodePoint} :
    ∀ {t : Text}, cutLast? separator t = none ↔ separator ∉ t
  | [] => by simp [cutLast?]
  | c :: rest => by
    have ih : cutLast? separator rest = none ↔ separator ∉ rest := cutLast?_eq_none_iff
    rcases hs : cutLast? separator rest with _ | ⟨before, after⟩ <;> rw [hs] at ih
    · by_cases hc : c = separator
      · simp [cutLast?, hs, hc]
      · simpa [cutLast?, hs, hc, Ne.symm hc] using ih
    · simp only [reduceCtorEq, false_iff, Decidable.not_not] at ih
      simp [cutLast?, hs, ih]

theorem not_mem_of_cutLast? {separator : CodePoint} :
    ∀ {t before after : Text}, cutLast? separator t = some (before, after) → separator ∉ after
  | c :: rest, before, after, h => by
    simp only [cutLast?] at h
    split at h
    · rename_i hs
      cases h
      exact not_mem_of_cutLast? hs
    · rename_i hs
      split at h
      · cases h
        exact cutLast?_eq_none_iff.mp hs
      · cases h

end Text

end PropertyLayers
