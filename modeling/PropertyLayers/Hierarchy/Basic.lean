import PropertyLayers.Declaration.Basic
import PropertyLayers.Hierarchy.Linearization

/-!
# Hierarchies of classes

A hierarchy knows each class with its linearization and with the attachments of its own. A class is
given its attachments from the bottom up, so what comes later stands first. Its declarations
are the attachments of all classes in its linearization, each at the level of its place.
-/

namespace PropertyLayers

/-- `order` starts with the class itself and ends with its furthest ancestor. -/
structure ClassRecord where
  identity : TestClass
  order : List TestClass
  attachments : List Attachment

structure Hierarchy where
  records : List ClassRecord

namespace Hierarchy

def empty : Hierarchy := ⟨[]⟩

def get? (h : Hierarchy) (c : TestClass) : Option ClassRecord :=
  h.records.find? fun r => r.identity = c

/-- The linearization of a class; a class that is not known stands alone. -/
def order (h : Hierarchy) (c : TestClass) : List TestClass :=
  ((h.get? c).map ClassRecord.order).getD [c]

/-- The attachments of the class itself, from top to bottom. -/
def attachments (h : Hierarchy) (c : TestClass) : List Attachment :=
  ((h.get? c).map ClassRecord.attachments).getD []

/-- Adds a class without attachments, unless its bases have no common linearization. -/
def define (h : Hierarchy) (c : TestClass) (bases : List TestClass) : Option Hierarchy :=
  (Linearization.linearize c bases h.order).map fun order => ⟨h.records ++ [⟨c, order, []⟩]⟩

/-- Gives a composition to a class, above what it has. -/
def attach (h : Hierarchy) (c : TestClass) (composition : Composition) : Hierarchy :=
  ⟨h.records.map fun r =>
    if r.identity = c then { r with attachments := composition.attachments ++ r.attachments }
    else r⟩

/-- Gives a class compositions that are written from top to bottom. -/
def attachAll (h : Hierarchy) (c : TestClass) (compositions : List Composition) : Hierarchy :=
  compositions.foldr (fun composition h => h.attach c composition) h

/-- The attachments of a class as declarations at a level. -/
def declarationsAt (h : Hierarchy) (c : TestClass) (level : Nat) : List Declaration :=
  (h.attachments c).map fun attachment => { attachment with declaring := c, level }

/-- The declarations that apply to a class, the most derived first. -/
def declarations (h : Hierarchy) (c : TestClass) : List Declaration :=
  (h.order c).zipIdx.flatMap fun (ancestor, level) => h.declarationsAt ancestor level

end Hierarchy

end PropertyLayers
