/-!
# Ordered trees

Trees with a value at each node and the children of a node in order.  A tree is
written as rows, one a node in document order with its depth, and visited node by
node together with the values above.

Main results:

- Theorem {lit}`Tree.map_value_visits`: the visited values are the values in document
  order.
- Theorem {lit}`Tree.ofRows?_rows`: a tree is read back from its rows.
-/

namespace FeatureCensus

/-- A node with its value and its children in order. -/
inductive Tree (α : Type) where
  | node (value : α) (children : List (Tree α))
  deriving Inhabited

/-- Trees in order. -/
abbrev Forest (α : Type) := List (Tree α)

namespace Tree

variable {α β : Type}

/-- The value at the root. -/
def value : Tree α → α
  | node v _ => v

/-- The children of the root. -/
def children : Tree α → Forest α
  | node _ cs => cs

@[simp]
theorem value_node (v : α) (cs : Forest α) : (node v cs).value = v := rfl

@[simp]
theorem children_node (v : α) (cs : Forest α) : (node v cs).children = cs := rfl

/-! ## Document order -/

mutual

/-- The values of a tree in document order: the root, then the children in turn. -/
def values : Tree α → List α
  | node v cs => v :: forestValues cs

/-- The values of trees in document order. -/
def forestValues : Forest α → List α
  | [] => []
  | t :: rest => t.values ++ forestValues rest

end

/-- Trees side by side have the values of the first ones before those of the others. -/
theorem forestValues_append (first second : Forest α) :
    forestValues (first ++ second) = forestValues first ++ forestValues second := by
  induction first with
  | nil => rfl
  | cons t rest ih => simp [forestValues, ih]

/-- A node of a tree, seen from the values above it, the nearest first. -/
structure Visit (α : Type) where
  ancestors : List α
  here : Tree α
  deriving Inhabited

mutual

/-- The nodes of a tree in document order, below the given values. -/
def visitsBelow (ancestors : List α) : Tree α → List (Visit α)
  | node v cs => ⟨ancestors, node v cs⟩ :: forestVisitsBelow (v :: ancestors) cs

/-- The nodes of trees in document order, below the given values. -/
def forestVisitsBelow (ancestors : List α) : Forest α → List (Visit α)
  | [] => []
  | t :: rest => t.visitsBelow ancestors ++ forestVisitsBelow ancestors rest

end

/-- The nodes of a tree in document order. -/
def visits (t : Tree α) : List (Visit α) :=
  t.visitsBelow []

mutual

theorem map_value_visitsBelow (ancestors : List α) (t : Tree α) :
    (t.visitsBelow ancestors).map (·.here.value) = t.values := by
  cases t with
  | node v cs =>
    simp [visitsBelow, values, map_value_forestVisitsBelow (v :: ancestors) cs]

theorem map_value_forestVisitsBelow (ancestors : List α) (cs : Forest α) :
    (forestVisitsBelow ancestors cs).map (·.here.value) = forestValues cs := by
  cases cs with
  | nil => rfl
  | cons t rest =>
    simp [forestVisitsBelow, forestValues, map_value_visitsBelow ancestors t,
      map_value_forestVisitsBelow ancestors rest]

end

/-- The visited values are the values in document order. -/
theorem map_value_visits (t : Tree α) : t.visits.map (·.here.value) = t.values :=
  map_value_visitsBelow [] t

/-! ## Rows -/

mutual

/-- The rows of a tree whose root has the given depth. -/
def rowsAt (depth : Nat) : Tree α → List (Nat × α)
  | node v cs => (depth, v) :: forestRowsAt (depth + 1) cs

/-- The rows of trees whose roots have the given depth. -/
def forestRowsAt (depth : Nat) : Forest α → List (Nat × α)
  | [] => []
  | t :: rest => t.rowsAt depth ++ forestRowsAt depth rest

end

/-- The rows of a tree: its nodes in document order, each with its depth. -/
def rows (t : Tree α) : List (Nat × α) :=
  t.rowsAt 0

/-- Puts a row before trees with the depths of their roots: the deeper ones that
follow at once become its children. -/
def addRow (row : Nat × α) (trees : List (Nat × Tree α)) : List (Nat × Tree α) :=
  (row.1, node row.2 ((trees.takeWhile (row.1 < ·.1)).map (·.2))) ::
    trees.dropWhile (row.1 < ·.1)

/-- The first tree that rows describe. -/
def ofRows? (rows : List (Nat × α)) : Option (Tree α) :=
  (rows.foldr addRow []).head?.map (·.2)

theorem takeWhile_depth_append (depth : Nat) (kids : Forest α) {after : List (Nat × Tree α)}
    (hafter : ∀ row, after.head? = some row → row.1 ≤ depth) :
    (kids.map (fun t => (depth + 1, t)) ++ after).takeWhile (depth < ·.1) =
        kids.map (fun t => (depth + 1, t)) ∧
      (kids.map (fun t => (depth + 1, t)) ++ after).dropWhile (depth < ·.1) = after := by
  induction kids with
  | nil =>
    cases after with
    | nil => simp
    | cons row rest =>
      have := hafter row rfl
      simp [Nat.not_lt.2 this]
  | cons t rest ih => simpa [List.takeWhile_cons, List.dropWhile_cons] using ih

mutual

theorem foldr_addRow_rowsAt (depth : Nat) (t : Tree α) {after : List (Nat × Tree α)}
    (hafter : ∀ row, after.head? = some row → row.1 ≤ depth) :
    (t.rowsAt depth).foldr addRow after = (depth, t) :: after := by
  cases t with
  | node v cs =>
    have hafter' : ∀ row, after.head? = some row → row.1 ≤ depth + 1 :=
      fun row h => Nat.le_succ_of_le (hafter row h)
    have hwhile := takeWhile_depth_append depth cs hafter
    rw [rowsAt, List.foldr_cons, foldr_addRow_forestRowsAt (depth + 1) cs hafter', addRow]
    simp only [hwhile.1, hwhile.2, List.map_map]
    congr 3
    exact List.map_id cs

theorem foldr_addRow_forestRowsAt (depth : Nat) (cs : Forest α) {after : List (Nat × Tree α)}
    (hafter : ∀ row, after.head? = some row → row.1 ≤ depth) :
    (forestRowsAt depth cs).foldr addRow after = cs.map (fun t => (depth, t)) ++ after := by
  cases cs with
  | nil => rfl
  | cons t rest =>
    rw [forestRowsAt, List.foldr_append, foldr_addRow_forestRowsAt depth rest hafter,
      foldr_addRow_rowsAt depth t, List.map_cons, List.cons_append]
    intro row h
    cases rest with
    | nil => exact hafter row h
    | cons u more =>
      simp only [List.map_cons, List.cons_append, List.head?_cons, Option.some.injEq] at h
      subst h
      exact Nat.le_refl depth

end

/-- A tree is read back from its rows. -/
theorem ofRows?_rows (t : Tree α) : ofRows? t.rows = some t := by
  rw [ofRows?, rows, foldr_addRow_rowsAt 0 t (by simp)]
  rfl

end Tree
end FeatureCensus
