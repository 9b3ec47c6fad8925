import PropertyLayers.Text.Basic

/-!
# Placeholders in a text

A placeholder is `${key}` or `${key:default}`, where the key is not empty and holds neither `:` nor
`}`, and the default holds no `}`. A text falls into placeholders and single code points, read from
the left; the pieces written back give the text (`flatMap_source_pieces`).
-/

namespace PropertyLayers

def dollar : CodePoint := '$'

def colon : CodePoint := ':'

def openBrace : CodePoint := '\x7b'

def closeBrace : CodePoint := '\x7d'

structure Placeholder where
  key : Text
  default? : Option Text
deriving DecidableEq

namespace Placeholder

/-- The placeholder as it stands in a text. -/
def source (p : Placeholder) : Text :=
  dollar :: openBrace :: (p.key ++ match p.default? with
    | some value => colon :: (value ++ [closeBrace])
    | none => [closeBrace])

def inKey (c : CodePoint) : Bool := c ≠ closeBrace && c ≠ colon

/-- The placeholder that starts after `${`, with what follows it. -/
def body? (s : Text) : Option (Placeholder × Text) :=
  let key := s.takeWhile inKey
  if key.isEmpty then none
  else match s.dropWhile inKey with
    | [] => none
    | c :: rest =>
      if c = closeBrace then some (⟨key, none⟩, rest)
      else match rest.dropWhile (· ≠ closeBrace) with
        | [] => none
        | _ :: after => some (⟨key, some (rest.takeWhile (· ≠ closeBrace))⟩, after)

/-- The placeholder at the start of the text, with what follows it. -/
def ofPrefix? : Text → Option (Placeholder × Text)
  | a :: b :: rest => if a = dollar ∧ b = openBrace then body? rest else none
  | _ => none

theorem source_append_of_body? {s : Text} {p : Placeholder} {rest : Text}
    (h : body? s = some (p, rest)) : p.source ++ rest = dollar :: openBrace :: s := by
  have hs := List.takeWhile_append_dropWhile (p := inKey) (l := s)
  simp only [body?] at h
  split at h
  · simp at h
  · split at h
    · simp at h
    · rename_i c after hd
      split at h
      · simp only [Option.some.injEq, Prod.mk.injEq] at h
        obtain ⟨rfl, rfl⟩ := h
        rename_i hc
        rw [hd, hc] at hs
        refine congrArg (dollar :: openBrace :: ·) (Eq.trans ?_ hs)
        simp
      · rename_i hc
        split at h
        · simp at h
        · rename_i d tail hr
          simp only [Option.some.injEq, Prod.mk.injEq] at h
          obtain ⟨rfl, rfl⟩ := h
          have hclose : d = closeBrace := by
            have := List.head?_dropWhile_not (fun x : CodePoint => decide (x ≠ closeBrace)) after
            rw [hr] at this
            simpa using this
          have hcolon : c = colon := by
            have := List.head?_dropWhile_not inKey s
            rw [hd] at this
            simpa [inKey, hc] using this
          have ha := List.takeWhile_append_dropWhile
            (p := fun x : CodePoint => decide (x ≠ closeBrace)) (l := after)
          rw [hr, hclose] at ha
          rw [hd, hcolon, ← ha] at hs
          refine congrArg (dollar :: openBrace :: ·) (Eq.trans ?_ hs)
          simp

theorem source_append_of_ofPrefix? {s : Text} {p : Placeholder} {rest : Text}
    (h : ofPrefix? s = some (p, rest)) : p.source ++ rest = s := by
  unfold ofPrefix? at h
  split at h
  · split at h
    · rename_i hab
      rw [source_append_of_body? h, hab.1, hab.2]
    · simp at h
  · simp at h

theorem length_lt_of_ofPrefix? {s : Text} {p : Placeholder} {rest : Text}
    (h : ofPrefix? s = some (p, rest)) : rest.length < s.length := by
  rw [← source_append_of_ofPrefix? h]
  simp only [source, List.length_append, List.length_cons]
  omega

end Placeholder

inductive Piece where
  | literal (c : CodePoint)
  | placeholder (p : Placeholder)
deriving DecidableEq

def Piece.source : Piece → Text
  | .literal c => [c]
  | .placeholder p => p.source

/-- The pieces of a text, the leftmost placeholder first. -/
def pieces : Text → List Piece
  | [] => []
  | c :: rest =>
    match _h : Placeholder.ofPrefix? (c :: rest) with
    | some (p, after) => .placeholder p :: pieces after
    | none => .literal c :: pieces rest
termination_by text => text.length
decreasing_by
  · exact Placeholder.length_lt_of_ofPrefix? ‹_›
  · simp

theorem flatMap_source_pieces (text : Text) : (pieces text).flatMap Piece.source = text := by
  fun_induction pieces text with
  | case1 => rfl
  | case2 c rest p after h ih =>
    simp [Piece.source, ih, Placeholder.source_append_of_ofPrefix? h]
  | case3 c rest h ih => simp [Piece.source, ih]

end PropertyLayers
