import FeatureCensus.Tree

/-!
# Leaves put into trees

Trees may have leaves put in between and below their nodes.  What is told node by node in document
order stays the same if it passes the new leaves by and does not tell a node with new leaves below
it from what it was.

Main results:

- Theorem {lit}`Tree.Padded.map_value_filter`: a test that the new leaves fail finds the same
  values.
- Theorem {lit}`Tree.Padded.flatMap_visits`: what is told in document order stays the same.
-/

namespace FeatureCensus
namespace Tree

variable {α β : Type}

/-- That trees are others with leaves put in, whose values are of some class. -/
inductive Padded (isNew : α → Prop) : Forest α → Forest α → Prop where
  | nil : Padded isNew [] []
  | leaf {v : α} {first second : Forest α} (hnew : isNew v) (hrest : Padded isNew first second) :
      Padded isNew first (.node v [] :: second)
  | node {v : α} {kids others first second : Forest α} (hkids : Padded isNew kids others)
      (hrest : Padded isNew first second) :
      Padded isNew (.node v kids :: first) (.node v others :: second)

namespace Padded

variable {isNew : α → Prop} {first second : Forest α}

theorem append {third fourth : Forest α} (h : Padded isNew first second)
    (hlater : Padded isNew third fourth) : Padded isNew (first ++ third) (second ++ fourth) := by
  induction h with
  | nil => exact hlater
  | leaf hnew _ ih => exact .leaf hnew ih
  | node hkids _ _ ih => exact .node hkids ih

/-- All values but the new ones are old. -/
theorem mem_forestValues (h : Padded isNew first second) {v : α}
    (hv : v ∈ forestValues second) : v ∈ forestValues first ∨ isNew v := by
  induction h with
  | nil => exact .inl hv
  | @leaf w first second hnew _ ih =>
    rw [forestValues, values, forestValues, List.singleton_append, List.mem_cons] at hv
    rcases hv with rfl | hv
    · exact .inr hnew
    · exact ih hv
  | @node w kids others first second _ _ ihkids ih =>
    rw [forestValues, values, List.mem_append, List.mem_cons] at hv
    rw [forestValues, values, List.mem_append, List.mem_cons]
    rcases hv with (rfl | hv) | hv
    · exact .inl (.inl (.inl rfl))
    · exact (ihkids hv).imp (fun hold => .inl (.inr hold)) id
    · exact (ih hv).imp .inr id

/-! ## Tests that the new leaves fail -/

variable (test : α → Bool)

/-- A test that the new leaves fail finds the same values. -/
theorem map_value_filter (h : Padded isNew first second) (htest : ∀ v, isNew v → test v = false) :
    (second.filter (test ·.value)).map (·.value) = (first.filter (test ·.value)).map (·.value) := by
  induction h with
  | nil => rfl
  | leaf hnew _ ih => rw [List.filter_cons_of_neg (by simp [htest _ hnew]), ih]
  | @node v _ _ _ _ _ _ _ ih =>
    rw [List.filter_cons, List.filter_cons, value_node, value_node]
    split
    · rw [List.map_cons, List.map_cons, ih]
      rfl
    · exact ih

/-- What is first to pass a test that the new leaves fail has the same value and, but for new
leaves, the same below it. -/
theorem find? (h : Padded isNew first second) (htest : ∀ v, isNew v → test v = false) :
    (first.find? (test ·.value) = none ∧ second.find? (test ·.value) = none) ∨
      ∃ v kids others, first.find? (test ·.value) = some (.node v kids) ∧
        second.find? (test ·.value) = some (.node v others) ∧ Padded isNew kids others := by
  induction h with
  | nil => exact .inl ⟨rfl, rfl⟩
  | leaf hnew _ ih => rwa [List.find?_cons_of_neg (by simp [htest _ hnew])]
  | @node v kids others _ _ hkids _ _ ih =>
    rw [List.find?_cons, List.find?_cons, value_node, value_node]
    cases test v with
    | true => exact .inr ⟨v, kids, others, rfl, rfl, hkids⟩
    | false => exact ih

/-! ## Document order -/

/-- What is told node by node stays the same in document order. -/
theorem flatMap_visits (tell : Visit α → List β)
    (hnew : ∀ above v, isNew v → tell ⟨above, .node v []⟩ = [])
    (hold : ∀ above v kids others, Padded isNew kids others →
      tell ⟨above, .node v others⟩ = tell ⟨above, .node v kids⟩)
    (h : Padded isNew first second) (above : List α) :
    (forestVisitsBelow above second).flatMap tell =
      (forestVisitsBelow above first).flatMap tell := by
  induction h generalizing above with
  | nil => rfl
  | @leaf v _ _ hleaf _ ih =>
    rw [forestVisitsBelow, visitsBelow, forestVisitsBelow, List.flatMap_append,
      List.flatMap_singleton, hnew above v hleaf, List.nil_append, ih]
  | @node v kids others _ _ hkids _ ihkids ih =>
    rw [forestVisitsBelow, forestVisitsBelow, visitsBelow, visitsBelow, List.flatMap_append,
      List.flatMap_append, List.flatMap_cons, List.flatMap_cons, hold above v kids others hkids,
      ihkids, ih]

end Padded
end Tree
end FeatureCensus
