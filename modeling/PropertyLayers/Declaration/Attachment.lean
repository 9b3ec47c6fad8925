import PropertyLayers.Text.Basic

/-!
# Attachments

An attachment is what a class is given directly or by way of a composition, which gives all of its
parts at once. Each composition around an attachment takes it one step further away
(`attachments_compose`).
-/

namespace PropertyLayers

structure Attachment where
  locations : List Text
  properties : List Text
  inheritLocations : Bool
  inheritProperties : Bool
  /-- How many compositions stand between the attachment and its class. -/
  distance : Nat
deriving DecidableEq

/-- Whether there are neither locations nor properties. -/
def Attachment.isEmpty (a : Attachment) : Bool := a.locations.isEmpty && a.properties.isEmpty

/-- The attachment inside one more composition. -/
def Attachment.nested (a : Attachment) : Attachment := { a with distance := a.distance + 1 }

inductive Composition where
  | single (attachment : Attachment)
  | compose (parts : List Composition)

namespace Composition

mutual

/-- What a composition gives to a class, from left to right. -/
def attachments : Composition → List Attachment
  | .single attachment => [attachment]
  | .compose parts => (attachmentsOf parts).map Attachment.nested

def attachmentsOf : List Composition → List Attachment
  | [] => []
  | part :: parts => attachments part ++ attachmentsOf parts

end

theorem attachmentsOf_eq_flatMap : ∀ parts, attachmentsOf parts = parts.flatMap attachments
  | [] => by simp [attachmentsOf]
  | part :: parts => by simp [attachmentsOf, attachmentsOf_eq_flatMap parts]

theorem attachments_compose (parts : List Composition) :
    attachments (.compose parts) = (parts.flatMap attachments).map Attachment.nested := by
  simp [attachments, attachmentsOf_eq_flatMap]

end Composition

end PropertyLayers
