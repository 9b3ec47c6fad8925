import Mathlib
import PropertyLayers.Proofs.Environment.Loads

/-!
# Locations that are resolved once

An application resolves each location over what is staged, and what comes of it over the
environment again. It asks for the same names and stops at the same places as the application that
resolves each location once exactly where each location that is reached is settled
(`applyLocations_once_iff`): the text that is resolved once is given back by the environment, and a
text with a placeholder that is left fails there. A location is settled where no placeholder arises
from values, defaults and what stands next to them (`settled_of_noneArises`); in a default, or
across two pieces, one can arise.
-/

namespace PropertyLayers

/-- Stages locations with a resolver of choice. -/
def stageBy (resolve : List Source → Text → Except UnexpandedPlaceholder Text) (loader : Loader)
    (encoding : Text) : List Source → List Text → Staging
  | staged, [] => ⟨[], .ok staged⟩
  | staged, location :: rest =>
    match resolve staged location with
    | .error placeholder => ⟨[], .error (.unexpanded placeholder)⟩
    | .ok name =>
      match loader.source name encoding with
      | .error failure => ⟨[name], .error failure⟩
      | .ok source =>
        let later := stageBy resolve loader encoding (staged ++ [source]) rest
        { later with asked := name :: later.asked }

/-- What holds at each location that a run of the resolver reaches, with what is staged there. -/
def Along (P : List Source → Text → Prop)
    (resolve : List Source → Text → Except UnexpandedPlaceholder Text) (loader : Loader)
    (encoding : Text) : List Source → List Text → Prop
  | _, [] => True
  | staged, location :: rest =>
    P staged location ∧ ∀ name source, resolve staged location = .ok name →
      loader.source name encoding = .ok source →
        Along P resolve loader encoding (staged ++ [source]) rest

/-- Both runs end with the same sources or the same failure, where one placeholder counts like
another. -/
inductive SameEnd : Except Failure (List Source) → Except Failure (List Source) → Prop
  | same {outcome : Except Failure (List Source)} : SameEnd outcome outcome
  | unexpanded {p q : UnexpandedPlaceholder} :
      SameEnd (.error (.unexpanded p)) (.error (.unexpanded q))

section Runs

variable {f g : List Source → Text → Except UnexpandedPlaceholder Text} {loader : Loader}
  {encoding : Text}

/-- The resolvers give the same name, or none. -/
def SameName (f g : List Source → Text → Except UnexpandedPlaceholder Text)
    (staged : List Source) (location : Text) : Prop :=
  (f staged location).toOption = (g staged location).toOption

theorem along_of_asked_eq :
    ∀ {locations : List Text} {staged : List Source},
      (stageBy f loader encoding staged locations).asked =
          (stageBy g loader encoding staged locations).asked →
        Along (SameName f g) g loader encoding staged locations
  | [], _, _ => trivial
  | location :: rest, staged, h => by
    rcases hf : f staged location with p | name <;> rcases hg : g staged location with q | other
    · refine ⟨by rw [SameName, hf, hg]; rfl, fun _ _ hn => ?_⟩
      rw [hg] at hn
      cases hn
    · rcases hs : loader.source other encoding with failure | source <;>
        simp [stageBy, hf, hg, hs] at h
    · rcases hs : loader.source name encoding with failure | source <;>
        simp [stageBy, hf, hg, hs] at h
    · have hname : name = other := by
        rcases hs : loader.source name encoding with _ | _ <;>
          rcases ht : loader.source other encoding with _ | _ <;>
            simp only [stageBy, hf, hg, hs, ht, List.cons.injEq] at h <;> exact h.1
      subst hname
      refine ⟨by rw [SameName, hf, hg], fun n source hn hs => ?_⟩
      rw [hg] at hn
      cases hn
      simp only [stageBy, hf, hg, hs, List.cons.injEq, true_and] at h
      exact along_of_asked_eq h

theorem stageBy_same_of_along :
    ∀ {locations : List Text} {staged : List Source},
      Along (SameName f g) g loader encoding staged locations →
        (stageBy f loader encoding staged locations).asked =
            (stageBy g loader encoding staged locations).asked
          ∧ SameEnd (stageBy f loader encoding staged locations).outcome
              (stageBy g loader encoding staged locations).outcome
  | [], _, _ => ⟨rfl, .same⟩
  | location :: rest, staged, h => by
    obtain ⟨hsame, hlater⟩ := h
    unfold SameName at hsame
    rcases hf : f staged location with p | name <;>
      rcases hg : g staged location with q | other <;> rw [hf, hg] at hsame
    · simp only [stageBy, hf, hg]
      exact ⟨trivial, .unexpanded⟩
    · cases hsame
    · cases hsame
    · cases hsame
      rcases hs : loader.source name encoding with failure | source
      · simp only [stageBy, hf, hg, hs]
        exact ⟨trivial, .same⟩
      · obtain ⟨hasked, hend⟩ := stageBy_same_of_along (hlater name source hg hs)
        simp only [stageBy, hf, hg, hs]
        exact ⟨congrArg _ hasked, hend⟩

theorem Along.congr {P Q : List Source → Text → Prop}
    {resolve : List Source → Text → Except UnexpandedPlaceholder Text}
    (h : ∀ staged location, P staged location ↔ Q staged location) :
    ∀ {locations : List Text} {staged : List Source},
      Along P resolve loader encoding staged locations ↔
        Along Q resolve loader encoding staged locations
  | [], _ => Iff.rfl
  | location :: rest, staged => by
    rw [Along, Along, h staged location]
    refine and_congr_right fun _ => forall_congr' fun name => forall_congr' fun source => ?_
    exact imp_congr_right fun _ => imp_congr_right fun _ => Along.congr h

end Runs

namespace Environment

variable (env : Environment) (loader : Loader) (encoding : Text)

/-- The location with its placeholders expanded once, over what is staged and in the way in which
the environment resolves a text. -/
def resolveOnce (staged : List Source) (location : Text) : Except UnexpandedPlaceholder Text :=
  expand (env.stagedScope staged) env.lenient [] location

/-- What comes of a staging. -/
def finish (staging : Staging) : Applied :=
  match staging.outcome with
  | .ok sources => ⟨env.addAllHighest sources, staging.asked, none⟩
  | .error failure => ⟨env, staging.asked, some failure⟩

/-- The application that resolves each location once. -/
def applyLocationsOnce (locations : List Text) : Applied :=
  env.finish (stageBy env.resolveOnce loader encoding [] locations)

/-- Both applications ask for the same names, leave the same environment, and stop at the same
location and for the same reason if they stop. -/
structure SameRun (a b : Applied) : Prop where
  asked : a.asked = b.asked
  environment : a.environment = b.environment
  stop : a.failure? = b.failure? ∨
    ∃ p q, a.failure? = some (.unexpanded p) ∧ b.failure? = some (.unexpanded q)

/-- The environment gives back what the location is resolved to; and where nothing is, it does not
resolve the text with the placeholders that are left. -/
structure Settled (staged : List Source) (location : Text) : Prop where
  kept : ∀ text, env.resolveOnce staged location = .ok text → env.resolve text = .ok text
  stopped : ∀ e text, env.resolveOnce staged location = .error e →
    expand (env.stagedScope staged) true [] location = .ok text →
      ∃ e', env.resolve text = .error e'

variable {env loader encoding}

theorem stage_eq_stageBy :
    ∀ (locations : List Text) (staged : List Source),
      env.stage loader encoding staged locations =
        stageBy env.resolveLocation loader encoding staged locations
  | [], _ => rfl
  | location :: rest, staged => by
    rcases hr : env.resolveLocation staged location with p | name
    · simp only [stage, stageBy, hr]
    rcases hs : loader.source name encoding with failure | source
    · simp only [stage, stageBy, hr, hs]
    · simp only [stage, stageBy, hr, hs, stage_eq_stageBy rest]

theorem applyLocations_eq_finish (locations : List Text) :
    env.applyLocations loader encoding locations =
      env.finish (stageBy env.resolveLocation loader encoding [] locations) := by
  rw [← stage_eq_stageBy]
  rfl

theorem asked_finish (staging : Staging) : (env.finish staging).asked = staging.asked := by
  unfold finish
  split <;> rfl

theorem sameRun_finish {a b : Staging} (hasked : a.asked = b.asked)
    (hend : SameEnd a.outcome b.outcome) : SameRun (env.finish a) (env.finish b) := by
  obtain ⟨askedA, outcomeA⟩ := a
  obtain ⟨askedB, outcomeB⟩ := b
  cases hend with
  | same =>
    cases hasked
    exact ⟨rfl, rfl, .inl rfl⟩
  | @unexpanded p q => exact ⟨hasked, rfl, .inr ⟨p, q, rfl, rfl⟩⟩

/-- The location resolved once, beside the same location resolved leniently. -/
theorem resolveOnce_cases (staged : List Source) (location : Text) :
    (∃ e e', expand (env.stagedScope staged) true [] location = .error e
        ∧ env.resolveOnce staged location = .error e')
      ∨ (∃ text, expand (env.stagedScope staged) true [] location = .ok text
        ∧ env.resolveOnce staged location = .ok text)
      ∨ ∃ text e, expand (env.stagedScope staged) true [] location = .ok text
        ∧ env.resolveOnce staged location = .error e := by
  have h := expand_modes (env.stagedScope staged) [] location
  unfold resolveOnce
  rcases hl : env.lenient with _ | _
  · generalize expand (env.stagedScope staged) true [] location = lenient at h ⊢
    generalize expand (env.stagedScope staged) false [] location = strict at h ⊢
    cases h with
    | failed _ => exact .inl ⟨_, _, rfl, rfl⟩
    | clear _ _ => exact .inr (.inl ⟨_, rfl, rfl⟩)
    | left _ _ _ _ => exact .inr (.inr ⟨_, _, rfl, rfl⟩)
  · rcases expand (env.stagedScope staged) true [] location with e | text
    · exact .inl ⟨e, e, rfl, rfl⟩
    · exact .inr (.inl ⟨text, rfl, rfl⟩)

theorem resolveLocation_of_error {staged : List Source} {location : Text}
    {e : UnexpandedPlaceholder}
    (h : expand (env.stagedScope staged) true [] location = .error e) :
    env.resolveLocation staged location = .error e := by
  rw [resolveLocation, h]
  rfl

theorem resolveLocation_of_ok {staged : List Source} {location text : Text}
    (h : expand (env.stagedScope staged) true [] location = .ok text) :
    env.resolveLocation staged location = env.resolve text := by
  rw [resolveLocation, h]
  rfl

theorem sameName_once_iff (staged : List Source) (location : Text) :
    SameName env.resolveLocation env.resolveOnce staged location ↔
      env.Settled staged location := by
  unfold SameName
  rcases resolveOnce_cases staged location with ⟨e, e', hl, ho⟩ | ⟨text, hl, ho⟩ | ⟨text, e, hl, ho⟩
  · rw [resolveLocation_of_error hl, ho]
    refine ⟨fun _ => ⟨fun t ht => ?_, fun _ t _ ht => ?_⟩, fun _ => rfl⟩
    · rw [ho] at ht
      cases ht
    · rw [hl] at ht
      cases ht
  · rw [resolveLocation_of_ok hl, ho]
    constructor
    · intro h
      refine ⟨fun t ht => ?_, fun e _ he _ => ?_⟩
      · rw [ho] at ht
        cases ht
        rcases hr : env.resolve text with p | t <;> rw [hr] at h <;> cases h
        rfl
      · rw [ho] at he
        cases he
    · intro h
      rw [h.kept text ho]
  · rw [resolveLocation_of_ok hl, ho]
    constructor
    · intro h
      refine ⟨fun t ht => ?_, fun _ t _ ht => ?_⟩
      · rw [ho] at ht
        cases ht
      · rw [hl] at ht
        cases ht
        rcases hr : env.resolve text with p | t <;> rw [hr] at h
        · exact ⟨p, rfl⟩
        · cases h
    · intro h
      obtain ⟨e', he'⟩ := h.stopped e text ho hl
      rw [he']
      rfl

/-- No placeholder stands in what the location leaves that was not left as one. -/
def NoneArises (env : Environment) (staged : List Source) (location : Text) : Prop :=
  ∀ out, Leaves (env.stagedScope staged) (pieces location) out →
    pieces (out.flatMap Piece.source) = out

theorem bare_of_stagedScope {staged : List Source} {ps : List Piece}
    (h : Bare (env.stagedScope staged) ps) : Bare env.scope ps := by
  intro p hp
  obtain ⟨hk, hd⟩ := h p hp
  rw [stagedScope_get?, Option.or_eq_none_iff] at hk
  exact ⟨hk.2, hd⟩

theorem settled_of_strict {staged : List Source} {location : Text} (hl : env.lenient = false)
    (h : env.NoneArises staged location) : env.Settled staged location := by
  have hm := expand_modes (env.stagedScope staged) [] location
  have hr : ∀ text, env.resolve text = expand env.scope false [] text := by
    intro text
    rw [resolve, hl]
  have ho : env.resolveOnce staged location =
      expand (env.stagedScope staged) false [] location := by
    rw [resolveOnce, hl]
  refine ⟨fun text ht => ?_, fun e text he ht => ?_⟩
  · rw [ho] at ht
    rw [ht] at hm
    generalize expand (env.stagedScope staged) true [] location = lenient at hm
    cases hm with
    | @clear out leaves literals =>
      rw [hr, expand, h out leaves]
      exact expandPieces_of_literals false [] literals
  · rw [ho] at he
    rw [he, ht] at hm
    cases hm with
    | @left out p _ leaves mem _ _ =>
      rw [hr, expand, h out leaves]
      exact expandPieces_strict_of_bare (bare_of_stagedScope leaves.bare) mem

theorem settled_of_lenient {staged : List Source} {location : Text} (hl : env.lenient = true)
    (h : env.NoneArises staged location) : env.Settled staged location := by
  have hm := expand_modes (env.stagedScope staged) [] location
  have ho : env.resolveOnce staged location =
      expand (env.stagedScope staged) true [] location := by
    rw [resolveOnce, hl]
  have hkept : ∀ out, Leaves (env.stagedScope staged) (pieces location) out →
      env.resolve (out.flatMap Piece.source) = .ok (out.flatMap Piece.source) := by
    intro out leaves
    rw [resolve, hl, expand, h out leaves]
    exact expandPieces_of_bare (bare_of_stagedScope leaves.bare)
  refine ⟨fun text ht => ?_, fun e text he ht => ?_⟩
  · rw [ho] at ht
    rw [ht] at hm
    generalize expand (env.stagedScope staged) false [] location = strict at hm
    cases hm with
    | clear leaves _ => exact hkept _ leaves
    | left leaves _ _ _ => exact hkept _ leaves
  · rw [ho, ht] at he
    cases he

theorem settled_of_noneArises {staged : List Source} {location : Text}
    (h : env.NoneArises staged location) : env.Settled staged location := by
  rcases hl : env.lenient with _ | _
  · exact settled_of_strict hl h
  · exact settled_of_lenient hl h

/-- Resolving each location once makes the same run exactly where each location that is reached is
settled, which it is where no placeholder arises. -/
theorem applyLocations_once_iff (env : Environment) (loader : Loader) (encoding : Text)
    (locations : List Text) :
    (SameRun (env.applyLocations loader encoding locations)
        (env.applyLocationsOnce loader encoding locations) ↔
      Along env.Settled env.resolveOnce loader encoding [] locations)
    ∧ ∀ staged location, env.NoneArises staged location → env.Settled staged location := by
  refine ⟨?_, fun _ _ => settled_of_noneArises⟩
  rw [← Along.congr sameName_once_iff, applyLocations_eq_finish, applyLocationsOnce]
  constructor
  · intro h
    have hasked := h.asked
    rw [asked_finish, asked_finish] at hasked
    exact along_of_asked_eq hasked
  · intro h
    obtain ⟨hasked, hend⟩ := stageBy_same_of_along h
    exact sameRun_finish hasked hend

/-- An environment in which `b` is `X`, and a loader whose first resource says that `b` is `S`. -/
def nestedDefaultEnvironment : Environment := ⟨[⟨"base", .ofPairs [("b", "X")]⟩], false⟩

def nestedDefaultLoader : Loader :=
  .ofEntries [("s", [98, 61, 83]), ("X", []), ("S", []), ("$\x7bb\x7d", [])]

/-- The default of `a` ends at the first closing brace, and with the second one it makes up a
placeholder for `b`. The value of `b` in the environment comes in its place, although `b` is staged
with another value. -/
theorem asked_nested_default :
    let locations : List Text := ["s", "$\x7ba:$\x7bb\x7d\x7d"]
    (nestedDefaultEnvironment.applyLocations nestedDefaultLoader "utf-8" locations).asked =
        [Text.ofString "s", Text.ofString "X"]
      ∧ (nestedDefaultEnvironment.applyLocationsOnce nestedDefaultLoader "utf-8" locations).asked =
        [Text.ofString "s", Text.ofString "$\x7bb\x7d"] := by
  have hs : nestedDefaultLoader.source "s" "utf-8" = .ok ⟨"s", .ofPairs [("b", "S")]⟩ := rfl
  have hx : nestedDefaultLoader.source "X" "utf-8" = .ok ⟨"X", ∅⟩ := rfl
  have hb : nestedDefaultLoader.source "$\x7bb\x7d" "utf-8" = .ok ⟨"$\x7bb\x7d", ∅⟩ := rfl
  have h1 : nestedDefaultEnvironment.resolveLocation [] "s" = .ok (Text.ofString "s") :=
    resolveLocation_of_dollar_not_mem [] (by decide)
  have h2 : nestedDefaultEnvironment.resolveLocation [⟨"s", .ofPairs [("b", "S")]⟩]
      "$\x7ba:$\x7bb\x7d\x7d" = .ok (Text.ofString "X") := by cbv
  have h3 : nestedDefaultEnvironment.resolveOnce [] "s" = .ok (Text.ofString "s") :=
    expand_of_dollar_not_mem false [] (by decide)
  have h4 : nestedDefaultEnvironment.resolveOnce [⟨"s", .ofPairs [("b", "S")]⟩]
      "$\x7ba:$\x7bb\x7d\x7d" = .ok (Text.ofString "$\x7bb\x7d") := by cbv
  constructor
  · rw [applyLocations_eq_finish, asked_finish]
    simp only [stageBy, h1, hs, List.nil_append, h2, hx]
  · rw [applyLocationsOnce, asked_finish]
    simp only [stageBy, h3, hs, List.nil_append, h4, hb]

end Environment

end PropertyLayers
