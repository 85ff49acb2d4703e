import FeatureCensus.Syntax.Classify
import FeatureCensus.Syntax.Draft
import FeatureCensus.Syntax.Markup

/-!
# Normalization

A parser tree becomes a normalized tree: punctuation is dropped, a node of a wrapper
type gives way to its children, and every other node becomes one element that also
tells where it begins and ends.  Attribute values must be allowed in markup.

Main results:

- Theorem {lit}`Syntax.Pending.weight_push_le`: children weigh no more than their parent, so
  that the conversion ends.
-/

namespace FeatureCensus
namespace Syntax

/-! ## The conversion -/

/-- The types of the nodes that give way to their children. -/
def wrapperTypes : List String := ["declaration", "class_member_declaration"]

/-- Whether a node gives way to its children. -/
def Token.isWrapper (t : Token) : Bool :=
  wrapperTypes.contains t.type

/-- The element of a node with its place in the source. -/
def placedElement (above : List String) (token : Token) (children : Forest Token) : Element :=
  let element := classify above token children
  { element with
    attributes := element.attributes ++
      [("start", toString token.start), ("end", toString token.stop)] }

/-- A node that waits for its element: the types above it, the nearest first, and the number
of the element that it goes under.  The root goes under none. -/
structure Pending where
  above : List String
  node : ParseTree
  under? : Option Nat
  deriving Inhabited

namespace Pending

/-- Puts the kept children of a node on a stack, the first one on top. -/
def push (above : List String) (under? : Option Nat) (children : Forest Token)
    (stack : List Pending) : List Pending :=
  children.foldr (fun child stack =>
    if child.value.kept then ⟨above, child, under?⟩ :: stack else stack) stack

/-- The number of nodes on a stack, those below the waiting ones included. -/
def weight : List Pending → Nat
  | [] => 0
  | pending :: stack => pending.node.values.length + weight stack

theorem weight_push_le (above : List String) (under? : Option Nat) (children : Forest Token)
    (stack : List Pending) :
    weight (push above under? children stack) ≤
      (Tree.forestValues children).length + weight stack := by
  induction children with
  | nil => simp [push, Tree.forestValues]
  | cons child rest ih =>
    simp only [push, List.foldr_cons, Tree.forestValues, List.length_append] at ih ⊢
    split
    · simp only [weight]
      omega
    · omega

end Pending

/-- Makes the elements of the waiting nodes, the top one first.  A wrapper below the root
leaves its place to its children. -/
def makeElements (draft : Draft) : List Pending → Except MarkupError Draft
  | [] => .ok draft
  | ⟨above, .node token children, under?⟩ :: stack =>
    if under?.isSome && token.isWrapper then
      makeElements draft (Pending.push (token.type :: above) under? children stack)
    else
      match (placedElement above token children).checked with
      | .error e => .error e
      | .ok element =>
        makeElements (draft.push ⟨under?, element⟩)
          (Pending.push (token.type :: above) (some draft.size) children stack)
termination_by stack => Pending.weight stack
decreasing_by
  all_goals
    refine Nat.lt_of_le_of_lt (Pending.weight_push_le _ _ _ _) ?_
    simp only [Pending.weight, Tree.values, List.length_cons]
    omega

/-- The normalized tree of a parser tree.  The root is kept whatever its type, so that there
always is a tree. -/
def normalize (tree : ParseTree) : Except MarkupError ElementTree := do
  let draft ← makeElements #[] [⟨[], tree, none⟩]
  return draft.tree?.getD default

end Syntax
end FeatureCensus
