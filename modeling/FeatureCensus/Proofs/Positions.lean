import FeatureCensus.Tree

/-!
# Positions

A position of a tree is a node together with all nodes above it, each with its whole subtree.
A visit tells of the nodes above only their values; a position also tells what else hangs
below them.

Main results:

- Theorem {lit}`Tree.map_visit_positions`: the positions are the visited nodes in document order.
- Theorem {lit}`Tree.mem_values_of_mem_visits`: what is visited are values of the tree.
-/

namespace FeatureCensus
namespace Tree

variable {α : Type}

/-- A node of a tree with the nodes above it, the nearest first. -/
structure Position (α : Type) where
  ancestors : List (Tree α)
  here : Tree α
  deriving Inhabited

namespace Position

/-- The positions of nodes each of which stands directly below the next one. -/
def enclosingOf : List (Tree α) → List (Position α)
  | [] => []
  | t :: above => ⟨above, t⟩ :: enclosingOf above

/-- The positions above a position, the nearest first. -/
def enclosing (p : Position α) : List (Position α) :=
  enclosingOf p.ancestors

/-- Whether the position is that of the root. -/
def isRoot (p : Position α) : Bool :=
  p.ancestors.isEmpty

/-- The nodes on the way from the position up to the root, which is left out. -/
def pathBelowRoot (p : Position α) : List (Tree α) :=
  (p.here :: p.ancestors).dropLast

/-- The visit of the node. -/
def visit (p : Position α) : Visit α :=
  ⟨p.ancestors.map (·.value), p.here⟩

theorem map_here_enclosing (p : Position α) : p.enclosing.map (·.here) = p.ancestors := by
  obtain ⟨ancestors, here⟩ := p
  rw [enclosing]
  induction ancestors with
  | nil => rfl
  | cons t above ih => simpa [enclosingOf] using ih

/-- The path of a child goes on where that of its parent begins. -/
@[simp]
theorem pathBelowRoot_child (child t : Tree α) (above : List (Tree α)) :
    pathBelowRoot ⟨t :: above, child⟩ = child :: pathBelowRoot ⟨above, t⟩ := rfl

end Position

/-! ## Document order -/

mutual

/-- The positions of a tree in document order, below the given nodes. -/
def positionsBelow (above : List (Tree α)) : Tree α → List (Position α)
  | node v cs => ⟨above, node v cs⟩ :: forestPositionsBelow (node v cs :: above) cs

/-- The positions of trees in document order, below the given nodes. -/
def forestPositionsBelow (above : List (Tree α)) : Forest α → List (Position α)
  | [] => []
  | t :: rest => t.positionsBelow above ++ forestPositionsBelow above rest

end

/-- The positions of a tree in document order. -/
def positions (t : Tree α) : List (Position α) :=
  t.positionsBelow []

mutual

theorem map_visit_positionsBelow (above : List (Tree α)) (t : Tree α) :
    (t.positionsBelow above).map (·.visit) = t.visitsBelow (above.map (·.value)) := by
  cases t with
  | node v cs =>
    simp only [positionsBelow, visitsBelow, List.map_cons,
      map_visit_forestPositionsBelow (node v cs :: above) cs]
    rfl

theorem map_visit_forestPositionsBelow (above : List (Tree α)) (cs : Forest α) :
    (forestPositionsBelow above cs).map (·.visit) =
      forestVisitsBelow (above.map (·.value)) cs := by
  cases cs with
  | nil => rfl
  | cons t rest =>
    simp [forestPositionsBelow, forestVisitsBelow, map_visit_positionsBelow above t,
      map_visit_forestPositionsBelow above rest]

end

/-- The positions are the visited nodes in document order. -/
theorem map_visit_positions (t : Tree α) : t.positions.map (·.visit) = t.visits :=
  map_visit_positionsBelow [] t

/-- The visits of trees side by side follow each other. -/
theorem forestVisitsBelow_append (above : List α) (first second : Forest α) :
    forestVisitsBelow above (first ++ second) =
      forestVisitsBelow above first ++ forestVisitsBelow above second := by
  induction first with
  | nil => rfl
  | cons t rest ih => simp [forestVisitsBelow, ih]

/-! ## Values -/

theorem value_mem_values (t : Tree α) : t.value ∈ t.values := by
  cases t
  exact List.mem_cons_self

mutual

theorem sublist_of_mem_positionsBelow {above : List (Tree α)} {t : Tree α} {p : Position α}
    (h : p ∈ t.positionsBelow above) :
    p.here.values.Sublist t.values ∧ ∀ a ∈ p.ancestors, a.values.Sublist t.values ∨ a ∈ above := by
  cases t with
  | node v cs =>
    rw [positionsBelow, List.mem_cons] at h
    rcases h with rfl | h
    · exact ⟨List.Sublist.refl _, fun a ha => Or.inr ha⟩
    · obtain ⟨hhere, habove⟩ := sublist_of_mem_forestPositionsBelow h
      have hkids : (forestValues cs).Sublist (node v cs).values := List.sublist_cons_self ..
      refine ⟨hhere.trans hkids, fun a ha => ?_⟩
      rcases habove a ha with hin | hin
      · exact Or.inl (hin.trans hkids)
      · rcases List.mem_cons.1 hin with rfl | hin
        · exact Or.inl (List.Sublist.refl _)
        · exact Or.inr hin

theorem sublist_of_mem_forestPositionsBelow {above : List (Tree α)} {cs : Forest α}
    {p : Position α} (h : p ∈ forestPositionsBelow above cs) :
    p.here.values.Sublist (forestValues cs) ∧
      ∀ a ∈ p.ancestors, a.values.Sublist (forestValues cs) ∨ a ∈ above := by
  cases cs with
  | nil => cases h
  | cons t rest =>
    have hfirst : t.values.Sublist (forestValues (t :: rest)) := List.sublist_append_left ..
    have hrest : (forestValues rest).Sublist (forestValues (t :: rest)) :=
      List.sublist_append_right ..
    rw [forestPositionsBelow, List.mem_append] at h
    rcases h with h | h
    · obtain ⟨hhere, habove⟩ := sublist_of_mem_positionsBelow h
      exact ⟨hhere.trans hfirst, fun a ha => (habove a ha).imp (·.trans hfirst) id⟩
    · obtain ⟨hhere, habove⟩ := sublist_of_mem_forestPositionsBelow h
      exact ⟨hhere.trans hrest, fun a ha => (habove a ha).imp (·.trans hrest) id⟩

end

/-- The nodes at and above a position hold values of the tree, each in as many places. -/
theorem sublist_of_mem_positions {t : Tree α} {p : Position α} (h : p ∈ t.positions) :
    p.here.values.Sublist t.values ∧ ∀ a ∈ p.ancestors, a.values.Sublist t.values := by
  obtain ⟨hhere, habove⟩ := sublist_of_mem_positionsBelow h
  exact ⟨hhere, fun a ha => (habove a ha).resolve_right List.not_mem_nil⟩

/-- A visited node and the nodes above it have values of the tree. -/
theorem mem_values_of_mem_visits {t : Tree α} {v : Visit α} (h : v ∈ t.visits) :
    v.here.value ∈ t.values ∧ ∀ a ∈ v.ancestors, a ∈ t.values := by
  rw [← map_visit_positions] at h
  obtain ⟨p, hp, rfl⟩ := List.mem_map.1 h
  obtain ⟨hhere, habove⟩ := sublist_of_mem_positions hp
  refine ⟨hhere.subset (value_mem_values p.here), fun a ha => ?_⟩
  obtain ⟨node, hnode, rfl⟩ := List.mem_map.1 ha
  exact (habove node hnode).subset (value_mem_values node)

end Tree
end FeatureCensus
