import FeatureCensus.Syntax.Element

/-!
# Drafts

A normalized tree while it is being made.  The elements are known by their numbers in the
order in which they were made, and each is put under an earlier one, or under none.  An
element has those that were put under it as its children, the earlier ones first.

Main results:

- Theorem {lit}`Syntax.Draft.totalSize_treesFrom`: no element is lost, and none stands in
  two places.
-/

namespace FeatureCensus
namespace Syntax

/-- An element with the number of the one that it was put under. -/
structure Placed where
  under? : Option Nat
  element : Element
  deriving DecidableEq, Repr, Inhabited

/-- The elements made so far, in the order in which they were made. -/
abbrev Draft := Array Placed

namespace Draft

/-- The trees that elements form, where the first one has the given number.  Each tree comes
with the number that its root was put under. -/
def treesFrom (number : Nat) : List Placed → List (Option Nat × ElementTree)
  | [] => []
  | placed :: rest =>
    let later := treesFrom (number + 1) rest
    (placed.under?, .node placed.element ((later.filter (·.1 == some number)).map (·.2))) ::
      later.filter (·.1 != some number)

/-- The tree of the element that was put under none. -/
def tree? (draft : Draft) : Option ElementTree :=
  ((treesFrom 0 draft.toList).find? (·.1.isNone)).map (·.2)

/-- The number of elements in all trees of a list. -/
def totalSize (trees : List (Option Nat × ElementTree)) : Nat :=
  (trees.flatMap fun tree => tree.2.values).length

theorem totalSize_filter_add (p : Option Nat × ElementTree → Bool)
    (trees : List (Option Nat × ElementTree)) :
    totalSize (trees.filter p) + totalSize (trees.filter fun tree => !p tree) =
      totalSize trees := by
  induction trees with
  | nil => rfl
  | cons tree rest ih =>
    by_cases h : p tree
    · simp [totalSize, h] at ih ⊢
      omega
    · simp [totalSize, h] at ih ⊢
      omega

theorem totalSize_eq_forest (trees : List (Option Nat × ElementTree)) :
    totalSize trees = (Tree.forestValues (trees.map (·.2))).length := by
  induction trees with
  | nil => rfl
  | cons tree rest ih => simp [totalSize, Tree.forestValues] at ih ⊢; omega

/-- No element is lost, and none stands in two places. -/
theorem totalSize_treesFrom (number : Nat) (placed : List Placed) :
    totalSize (treesFrom number placed) = placed.length := by
  induction placed generalizing number with
  | nil => rfl
  | cons first rest ih =>
    have hsplit := totalSize_filter_add (·.1 == some number) (treesFrom (number + 1) rest)
    have hown := totalSize_eq_forest
      ((treesFrom (number + 1) rest).filter (·.1 == some number))
    have hcons : totalSize (treesFrom number (first :: rest)) =
        1 + totalSize ((treesFrom (number + 1) rest).filter (·.1 == some number)) +
          totalSize ((treesFrom (number + 1) rest).filter fun tree =>
            !(tree.1 == some number)) := by
      rw [hown]
      simp only [treesFrom, totalSize, Tree.values, bne, List.flatMap_cons, List.length_append,
        List.length_cons]
      omega
    rw [hcons, Nat.add_assoc, hsplit, ih, List.length_cons, Nat.add_comm]

end Draft

end Syntax
end FeatureCensus
