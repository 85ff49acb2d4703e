import FeatureCensus.Proofs.Positions
import FeatureCensus.Proofs.Syntax.Conversion

/-!
# The outline of a parser tree

Which nodes of a parser tree are seen in its normalized tree, and where.  A node is visible
if it and all nodes above it but the root are kept, and if it is the root or no wrapper.  The
nodes above a visible node that are the root or no wrapper are its effective ancestors.

Main results:

- Theorem {lit}`Syntax.visits_conversion`: the normalized tree consists of the visible nodes in
  document order, each below its effective ancestors.
- Theorem {lit}`Syntax.children_image`: the children in the normalized tree are the effective
  children.
- Theorem {lit}`Syntax.normalize_refines_recursion`: the conversion by a loop makes the tree of
  the recursion, or tells the first text that markup cannot hold.
-/

namespace FeatureCensus
namespace Syntax

/-- A node of a parser tree in its place. -/
abbrev Spot := Tree.Position Token

namespace Spot

/-- Whether the node and all nodes above it but the root are kept. -/
def isReached (p : Spot) : Bool :=
  p.pathBelowRoot.all (·.value.kept)

/-- Whether the node is the root or no wrapper. -/
def isPlain (p : Spot) : Bool :=
  p.isRoot || !p.here.value.isWrapper

/-- Whether the node is seen in the normalized tree. -/
def isVisible (p : Spot) : Bool :=
  isReached p && isPlain p

/-- The nodes above that are the root or no wrappers, the nearest first. -/
def effectiveAncestors (p : Spot) : List Spot :=
  p.enclosing.filter isPlain

/-- The types of the nodes above, the nearest first. -/
def typesAbove (p : Spot) : List String :=
  p.ancestors.map (·.value.type)

/-- The element of the node. -/
def element (p : Spot) : Element :=
  placedElement (typesAbove p) p.here.value p.here.children

/-- The node in the normalized tree. -/
def image (p : Spot) : Tree.Visit Element :=
  ⟨(effectiveAncestors p).map element, conversion (typesAbove p) p.here⟩

end Spot

/-- The visible nodes of a parser tree in document order. -/
def visibleSpots (tree : ParseTree) : List Spot :=
  tree.positions.filter Spot.isVisible

/-! ## What is not reached -/

mutual

/-- Below a node that is not reached nothing is visible. -/
theorem visible_positionsBelow_of_not_reached {above : List ParseTree} {t : ParseTree}
    (h : Spot.isReached ⟨above, t⟩ = false) :
    (t.positionsBelow above).filter Spot.isVisible = [] := by
  cases t with
  | node token children =>
    rw [Tree.positionsBelow, List.filter_cons_of_neg (by simp [Spot.isVisible, h])]
    exact visible_forestPositionsBelow_of_not_reached children h

theorem visible_forestPositionsBelow_of_not_reached {above : List ParseTree} {t : ParseTree}
    (children : Forest Token) (h : Spot.isReached ⟨above, t⟩ = false) :
    (Tree.forestPositionsBelow (t :: above) children).filter Spot.isVisible = [] := by
  cases children with
  | nil => rfl
  | cons child rest =>
    have hchild : Spot.isReached ⟨t :: above, child⟩ = false := by
      simp only [Spot.isReached, Tree.Position.pathBelowRoot_child, List.all_cons] at h ⊢
      simp [h]
    rw [Tree.forestPositionsBelow, List.filter_append,
      visible_positionsBelow_of_not_reached hchild,
      visible_forestPositionsBelow_of_not_reached rest h, List.append_nil]

end

/-! ## What is visible -/

/-- A child of a node that is reached is reached if it is kept. -/
theorem isReached_child {above : List ParseTree} {t : ParseTree}
    (h : Spot.isReached ⟨above, t⟩ = true) (child : ParseTree) :
    Spot.isReached ⟨t :: above, child⟩ = child.value.kept := by
  simp only [Spot.isReached, Tree.Position.pathBelowRoot_child, List.all_cons] at h ⊢
  simp [h]

theorem effectiveAncestors_child (child t : ParseTree) (above : List ParseTree) :
    Spot.effectiveAncestors ⟨t :: above, child⟩ =
      if Spot.isPlain ⟨above, t⟩ then ⟨above, t⟩ :: Spot.effectiveAncestors ⟨above, t⟩
      else Spot.effectiveAncestors ⟨above, t⟩ := by
  simp only [Spot.effectiveAncestors, Tree.Position.enclosing, Tree.Position.enclosingOf,
    List.filter_cons]

mutual

/-- The visible nodes at and below a kept child are those of the trees that it contributes. -/
theorem visits_hoist {above : List ParseTree} {t child : ParseTree}
    (hchild : Spot.isReached ⟨t :: above, child⟩ = true) :
    Tree.forestVisitsBelow
        ((Spot.effectiveAncestors ⟨t :: above, child⟩).map Spot.element)
        (hoist (Spot.typesAbove ⟨t :: above, child⟩) child) =
      ((child.positionsBelow (t :: above)).filter Spot.isVisible).map Spot.image := by
  cases child with
  | node token children =>
    have hkids := visits_hoistAll hchild children
    rw [hoist, Tree.positionsBelow]
    by_cases hwrapper : token.isWrapper
    · have hplain : Spot.isPlain ⟨t :: above, .node token children⟩ = false := by
        simp [Spot.isPlain, Tree.Position.isRoot, hwrapper]
      rw [if_pos hwrapper, List.filter_cons_of_neg (by simp [Spot.isVisible, hplain])]
      simpa [hplain] using hkids
    · have hplain : Spot.isPlain ⟨t :: above, .node token children⟩ = true := by
        simp [Spot.isPlain, hwrapper]
      rw [if_neg hwrapper, List.filter_cons_of_pos (by simp [Spot.isVisible, hplain, hchild]),
        List.map_cons, ← hkids, if_pos hplain, List.map_cons, Tree.forestVisitsBelow,
        Tree.forestVisitsBelow, List.append_nil]
      rfl

/-- The visible nodes below a reached node are those of the trees that its children
contribute.  The element of the node stands above them unless it is a wrapper. -/
theorem visits_hoistAll {above : List ParseTree} {t : ParseTree}
    (ht : Spot.isReached ⟨above, t⟩ = true) (children : Forest Token) :
    Tree.forestVisitsBelow
        ((if Spot.isPlain ⟨above, t⟩ then ⟨above, t⟩ :: Spot.effectiveAncestors ⟨above, t⟩
          else Spot.effectiveAncestors ⟨above, t⟩).map Spot.element)
        (hoistAll (t.value.type :: Spot.typesAbove ⟨above, t⟩) children) =
      ((Tree.forestPositionsBelow (t :: above) children).filter Spot.isVisible).map
        Spot.image := by
  cases children with
  | nil => rfl
  | cons child rest =>
    have hrest := visits_hoistAll ht rest
    rw [hoistAll, Tree.forestPositionsBelow, List.filter_append, List.map_append, ← hrest,
      Tree.forestVisitsBelow_append]
    congr 1
    by_cases hkept : child.value.kept
    · have hchild : Spot.isReached ⟨t :: above, child⟩ = true := by
        rw [isReached_child ht, hkept]
      rw [if_pos hkept, ← visits_hoist hchild, effectiveAncestors_child]
      rfl
    · have hchild : Spot.isReached ⟨t :: above, child⟩ = false := by
        rw [isReached_child ht]
        simpa using hkept
      rw [if_neg hkept, visible_positionsBelow_of_not_reached hchild]
      rfl

end

/-- The normalized tree consists of the visible nodes in document order, each below its
effective ancestors. -/
theorem visits_conversion (tree : ParseTree) :
    (conversion [] tree).visits = (visibleSpots tree).map Spot.image := by
  cases tree with
  | node token children =>
    have hreached : Spot.isReached ⟨[], .node token children⟩ = true := rfl
    have hkids := visits_hoistAll hreached children
    rw [visibleSpots, Tree.positions, Tree.positionsBelow,
      List.filter_cons_of_pos (by rfl), List.map_cons, ← hkids]
    rfl

/-! ## Effective children -/

mutual

/-- The places of the nodes that a kept child stands for: of itself, or of those that the kept
children of a wrapper stand for. -/
def plainSpots (above : List ParseTree) : ParseTree → List Spot
  | .node token children =>
    if token.isWrapper then plainSpotsAll (.node token children :: above) children
    else [⟨above, .node token children⟩]

/-- The places of the nodes that the kept ones of some children stand for, in order. -/
def plainSpotsAll (above : List ParseTree) : Forest Token → List Spot
  | [] => []
  | child :: rest =>
    (if child.value.kept then plainSpots above child else []) ++ plainSpotsAll above rest

end

/-- The nodes that stand below a node once wrappers have given way, in order. -/
def Spot.effectiveChildren (p : Spot) : List Spot :=
  plainSpotsAll (p.here :: p.ancestors) p.here.children

mutual

theorem hoist_eq_map_image (above : List ParseTree) (child : ParseTree) :
    hoist (above.map (·.value.type)) child =
      (plainSpots above child).map fun q => (Spot.image q).here := by
  cases child with
  | node token children =>
    have hkids := hoistAll_eq_map_image (.node token children :: above) children
    rw [hoist, plainSpots]
    by_cases hwrapper : token.isWrapper
    · rw [if_pos hwrapper, if_pos hwrapper]
      exact hkids
    · rw [if_neg hwrapper, if_neg hwrapper]
      rfl

theorem hoistAll_eq_map_image (above : List ParseTree) (children : Forest Token) :
    hoistAll (above.map (·.value.type)) children =
      (plainSpotsAll above children).map fun q => (Spot.image q).here := by
  cases children with
  | nil => rfl
  | cons child rest =>
    rw [hoistAll, plainSpotsAll, List.map_append, hoistAll_eq_map_image above rest,
      hoist_eq_map_image above child]
    by_cases hkept : child.value.kept
    · rw [if_pos hkept, if_pos hkept]
    · rw [if_neg hkept, if_neg hkept]
      rfl

end

/-- The children of a node in the normalized tree are its effective children. -/
theorem children_image (p : Spot) :
    (Spot.image p).here.children = p.effectiveChildren.map fun q => (Spot.image q).here := by
  obtain ⟨above, token, children⟩ := p
  exact hoistAll_eq_map_image (.node token children :: above) children

/-! ## The loop and the recursion -/

/-- The conversion by a loop makes the tree of the recursion: a node has its element over what
its kept children contribute, and a wrapper below the root contributes what its own children
do.  So the visible nodes and no others have elements, one each, in document order and below
the elements of their effective ancestors.  The loop fails exactly where some element holds a
text that markup cannot hold, and tells the first one. -/
theorem normalize_refines_recursion :
    (∀ above token children,
      conversion above (.node token children) =
        .node (placedElement above token children)
          ((children.filter (·.value.kept)).flatMap (hoist (token.type :: above)))) ∧
    (∀ above child,
      hoist above child =
        if child.value.isWrapper then
          (child.children.filter (·.value.kept)).flatMap (hoist (child.value.type :: above))
        else [conversion above child]) ∧
    ∀ tree,
      (normalize tree = match illegalText? (conversion [] tree).values with
        | some text => .error (.illegalText text)
        | none => .ok (conversion [] tree)) ∧
      ((∃ error, normalize tree = .error error) ↔
        ∃ e ∈ (conversion [] tree).values, ∃ entry ∈ e.attributes,
          isMarkupText entry.2 = false) ∧
      (conversion [] tree).visits = (visibleSpots tree).map Spot.image ∧
      (conversion [] tree).values = (visibleSpots tree).map Spot.element := by
  refine ⟨conversion_node, hoist_eq, fun tree => ?_⟩
  refine ⟨normalize_eq tree, ?_, visits_conversion tree, ?_⟩
  · rw [← isSome_illegalText?_iff, normalize_eq]
    cases illegalText? (conversion [] tree).values <;> simp
  · rw [← Tree.map_value_visits, visits_conversion, List.map_map]
    exact List.map_congr_left fun p _ => value_conversion _ _

end Syntax
end FeatureCensus
