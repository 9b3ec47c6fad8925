/-!
# Linearization

The orders of the bases of a class are merged into one that agrees with all of them, if there is
one. What comes next is the first head that no order has further back.
-/

namespace PropertyLayers.Linearization

variable {α : Type} [DecidableEq α]

def next? (orders : List (List α)) : Option α :=
  (orders.filterMap List.head?).find? fun x => orders.all fun order => x ∉ order.tail

def without (x : α) (order : List α) : List α :=
  if order.head? = some x then order.tail else order

/-- Merges orders with as many steps as given, one for each item. -/
def mergeIn : Nat → List (List α) → Option (List α)
  | 0, _ => some []
  | steps + 1, orders =>
    if orders.all List.isEmpty then some []
    else do
      let x ← next? orders
      return x :: (← mergeIn steps (orders.map (without x)))

/-- The order of a class, given those of its bases. -/
def linearize (item : α) (bases : List α) (orderOf : α → List α) : Option (List α) :=
  if bases.Nodup then
    let orders := bases.map orderOf ++ [bases]
    (mergeIn orders.flatten.length orders).map (item :: ·)
  else none

end PropertyLayers.Linearization
