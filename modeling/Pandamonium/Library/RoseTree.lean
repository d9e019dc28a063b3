import Mathlib.Data.List.Basic

/-!
# Trees with any number of children

The labels of a tree in preorder, and the tree with every label replaced by a function of it.  A
change that only looks at a label is read off the labels (`labels_map`).
-/

set_option autoImplicit false

namespace Pandamonium.Library

/-- A label and the subtrees below it, in order. -/
inductive RoseTree (α : Type)
  | node (label : α) (children : List (RoseTree α))

namespace RoseTree

variable {α β γ : Type}

def label : RoseTree α → α
  | .node a _ => a

mutual

/-- The labels, that of a node before those of its children. -/
def labels : RoseTree α → List α
  | .node a children => a :: forestLabels children

def forestLabels : List (RoseTree α) → List α
  | [] => []
  | tree :: forest => tree.labels ++ forestLabels forest

end

mutual

/-- The same tree with other labels. -/
def map (f : α → β) : RoseTree α → RoseTree β
  | .node a children => .node (f a) (mapForest f children)

def mapForest (f : α → β) : List (RoseTree α) → List (RoseTree β)
  | [] => []
  | tree :: forest => tree.map f :: mapForest f forest

end

mutual

@[simp] theorem labels_map (f : α → β) (tree : RoseTree α) :
    (tree.map f).labels = tree.labels.map f := by
  cases tree with
  | node a children => simp only [map, labels, List.map_cons, forestLabels_map f children]

theorem forestLabels_map (f : α → β) (forest : List (RoseTree α)) :
    forestLabels (mapForest f forest) = (forestLabels forest).map f := by
  cases forest with
  | nil => rfl
  | cons tree forest =>
    simp only [mapForest, forestLabels, List.map_append, labels_map f tree,
      forestLabels_map f forest]

end

mutual

theorem map_map (g : β → γ) (f : α → β) (tree : RoseTree α) :
    (tree.map f).map g = tree.map (g ∘ f) := by
  cases tree with
  | node a children => simp only [map, Function.comp_apply, mapForest_map g f children]

theorem mapForest_map (g : β → γ) (f : α → β) (forest : List (RoseTree α)) :
    mapForest g (mapForest f forest) = mapForest (g ∘ f) forest := by
  cases forest with
  | nil => rfl
  | cons tree forest => simp only [mapForest, map_map g f tree, mapForest_map g f forest]

end

end RoseTree

end Pandamonium.Library
