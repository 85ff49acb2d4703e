import FeatureCensus.Syntax.Normalize

/-!
# The conversion by recursion

The normalized tree of a parser tree is made by a loop over a stack of waiting nodes, which
puts numbered elements under earlier ones.  Here the same tree is described by recursion on
the parser tree.  The invariant of the loop says which rows the waiting nodes still add to
the draft; a draft of the rows of a tree is read back as that tree.

Main results:

- Theorem {lit}`Syntax.makeElements_eq`: the loop adds the rows of all waiting nodes, unless
  one of their elements holds a text that markup cannot hold.
- Theorem {lit}`Syntax.treesFrom_rowsOf`: a draft of the rows of a tree is that tree.
- Theorem {lit}`Syntax.normalize_eq`: the normalized tree is that of the recursion.
-/

namespace FeatureCensus
namespace Syntax

/-! ## The recursion -/

mutual

/-- The tree of a node that stands below nodes of the given types: its element over the trees
that its kept children contribute. -/
def conversion (above : List String) : ParseTree → ElementTree
  | .node token children =>
    .node (placedElement above token children) (hoistAll (token.type :: above) children)

/-- The trees that a kept child contributes: those that its own kept children contribute where
it is a wrapper, and its own tree otherwise. -/
def hoist (above : List String) : ParseTree → Forest Element
  | .node token children =>
    if token.isWrapper then hoistAll (token.type :: above) children
    else [.node (placedElement above token children) (hoistAll (token.type :: above) children)]

/-- The trees that the kept ones of some children contribute, in order. -/
def hoistAll (above : List String) : Forest Token → Forest Element
  | [] => []
  | child :: rest => (if child.value.kept then hoist above child else []) ++ hoistAll above rest

end

theorem hoistAll_eq_flatMap (above : List String) (children : Forest Token) :
    hoistAll above children = (children.filter (·.value.kept)).flatMap (hoist above) := by
  induction children with
  | nil => simp [hoistAll]
  | cons child rest ih =>
    rw [hoistAll, ih]
    by_cases h : child.value.kept <;> simp [h]

/-- A node has its element over what its kept children contribute. -/
theorem conversion_node (above : List String) (token : Token) (children : Forest Token) :
    conversion above (.node token children) =
      .node (placedElement above token children)
        ((children.filter (·.value.kept)).flatMap (hoist (token.type :: above))) := by
  rw [conversion, hoistAll_eq_flatMap]

/-- A wrapper contributes what its kept children do, any other child its own tree. -/
theorem hoist_eq (above : List String) (child : ParseTree) :
    hoist above child =
      if child.value.isWrapper then
        (child.children.filter (·.value.kept)).flatMap (hoist (child.value.type :: above))
      else [conversion above child] := by
  cases child with
  | node token children => rw [hoist, conversion, hoistAll_eq_flatMap]; rfl

/-- The element of a node stands at the root of its tree. -/
theorem value_conversion (above : List String) (node : ParseTree) :
    (conversion above node).value = placedElement above node.value node.children := by
  cases node with
  | node token children => rw [conversion]; rfl

/-! ## Texts that markup cannot hold -/

/-- The first value of an element that markup cannot hold. -/
def Element.illegalText? (e : Element) : Option String :=
  (e.attributes.find? fun entry => !isMarkupText entry.2).map (·.2)

/-- An element is refused for its first illegal text. -/
theorem Element.checked_eq (e : Element) :
    e.checked = match e.illegalText? with
      | some text => .error (.illegalText text)
      | none => .ok e := by
  unfold Element.checked Element.illegalText?
  cases e.attributes.find? (fun entry => !isMarkupText entry.2) <;> rfl

/-- The first illegal text in the elements of trees, in document order. -/
def illegalText? (elements : List Element) : Option String :=
  elements.findSome? (·.illegalText?)

/-- There is an illegal text where some attribute of some element has one. -/
theorem isSome_illegalText?_iff (elements : List Element) :
    (illegalText? elements).isSome = true ↔
      ∃ e ∈ elements, ∃ entry ∈ e.attributes, isMarkupText entry.2 = false := by
  simp [illegalText?, Element.illegalText?, List.findSome?_isSome_iff]

/-! ## The rows of a tree -/

mutual

/-- The rows that the elements of a tree have in a draft where its root has the given number
and is put under the given element. -/
def rowsOf (number : Nat) (under? : Option Nat) : ElementTree → List Placed
  | .node e kids => ⟨under?, e⟩ :: rowsOfAll (number + 1) (some number) kids

/-- The rows of trees that are put under the same element one after the other. -/
def rowsOfAll (number : Nat) (under? : Option Nat) : Forest Element → List Placed
  | [] => []
  | t :: rest => rowsOf number under? t ++ rowsOfAll (number + t.values.length) under? rest

end

/-- The number of elements of trees. -/
def elementCount (forest : Forest Element) : Nat :=
  (Tree.forestValues forest).length

@[simp]
theorem elementCount_nil : elementCount [] = 0 := rfl

@[simp]
theorem elementCount_cons (t : ElementTree) (rest : Forest Element) :
    elementCount (t :: rest) = t.values.length + elementCount rest := by
  simp [elementCount, Tree.forestValues]

@[simp]
theorem elementCount_append (first second : Forest Element) :
    elementCount (first ++ second) = elementCount first + elementCount second := by
  simp [elementCount, Tree.forestValues_append]

theorem length_values_node (e : Element) (kids : Forest Element) :
    (Tree.node e kids).values.length = elementCount kids + 1 := by
  simp [elementCount, Tree.values]

theorem rowsOfAll_append (number : Nat) (under? : Option Nat) (first second : Forest Element) :
    rowsOfAll number under? (first ++ second) =
      rowsOfAll number under? first ++ rowsOfAll (number + elementCount first) under? second := by
  induction first generalizing number with
  | nil => simp [rowsOfAll]
  | cons t rest ih =>
    simp only [List.cons_append, rowsOfAll, ih, List.append_assoc, elementCount_cons,
      Nat.add_assoc]

mutual

/-- A draft of the rows of a tree is that tree, where what follows is put under something
else. -/
theorem treesFrom_rowsOf (number : Nat) (under? : Option Nat) (t : ElementTree)
    (after : List Placed)
    (hafter : ∀ tree ∈ Draft.treesFrom (number + t.values.length) after,
      ∀ k, tree.1 = some k → k < number) :
    Draft.treesFrom number (rowsOf number under? t ++ after) =
      (under?, t) :: Draft.treesFrom (number + t.values.length) after := by
  cases t with
  | node e kids =>
    have hlength : number + (Tree.node e kids).values.length = number + 1 + elementCount kids := by
      rw [length_values_node]
      omega
    rw [hlength] at hafter ⊢
    have hlater : Draft.treesFrom (number + 1)
        (rowsOfAll (number + 1) (some number) kids ++ after) =
          kids.map (some number, ·) ++ Draft.treesFrom (number + 1 + elementCount kids) after := by
      refine treesFrom_rowsOfAll (number + 1) (some number) kids after ?_ ?_
      · intro k hk
        obtain rfl := Option.some.inj hk
        omega
      · intro tree htree k hk
        have := hafter tree htree k hk
        omega
    -- What follows does not go under this element, so it takes its own trees and no others.
    have hother : ∀ tree ∈ Draft.treesFrom (number + 1 + elementCount kids) after,
        tree.1 ≠ some number := by
      intro tree htree heq
      have := hafter tree htree number heq
      omega
    have hown : (Draft.treesFrom (number + 1 + elementCount kids) after).filter
        (·.1 == some number) = [] := by
      rw [List.filter_eq_nil_iff]
      intro tree htree
      simpa using hother tree htree
    have hrest : (Draft.treesFrom (number + 1 + elementCount kids) after).filter
        (·.1 != some number) = Draft.treesFrom (number + 1 + elementCount kids) after := by
      rw [List.filter_eq_self]
      intro tree htree
      simpa using hother tree htree
    rw [rowsOf, List.cons_append, Draft.treesFrom]
    simp only [hlater, List.filter_append, hown, hrest]
    simp [List.filter_map, Function.comp_def]

theorem treesFrom_rowsOfAll (number : Nat) (under? : Option Nat) (forest : Forest Element)
    (after : List Placed) (hunder : ∀ k, under? = some k → k < number)
    (hafter : ∀ tree ∈ Draft.treesFrom (number + elementCount forest) after,
      ∀ k, tree.1 = some k → k < number) :
    Draft.treesFrom number (rowsOfAll number under? forest ++ after) =
      forest.map (under?, ·) ++ Draft.treesFrom (number + elementCount forest) after := by
  cases forest with
  | nil => simp [rowsOfAll]
  | cons t rest =>
    have hlength : number + elementCount (t :: rest) =
        number + t.values.length + elementCount rest := by
      rw [elementCount_cons]
      omega
    rw [hlength] at hafter ⊢
    have hmore : Draft.treesFrom (number + t.values.length)
        (rowsOfAll (number + t.values.length) under? rest ++ after) =
          rest.map (under?, ·) ++
            Draft.treesFrom (number + t.values.length + elementCount rest) after := by
      refine treesFrom_rowsOfAll (number + t.values.length) under? rest after ?_ ?_
      · intro k hk
        have := hunder k hk
        omega
      · intro tree htree k hk
        have := hafter tree htree k hk
        omega
    rw [rowsOfAll, List.append_assoc,
      treesFrom_rowsOf number under? t _ ?_, hmore]
    · rfl
    · intro tree htree k hk
      rw [hmore] at htree
      rcases List.mem_append.1 htree with hin | hin
      · obtain ⟨u, -, rfl⟩ := List.mem_map.1 hin
        exact hunder k hk
      · exact hafter tree hin k hk

end

/-- The draft of a tree whose root is put under none is that tree. -/
theorem tree?_rowsOf (t : ElementTree) : Draft.tree? (rowsOf 0 none t).toArray = some t := by
  have htrees := treesFrom_rowsOf 0 none t [] (by simp [Draft.treesFrom])
  rw [List.append_nil] at htrees
  simp [Draft.tree?, htrees]

/-! ## The loop -/

namespace Pending

/-- The trees that a waiting node still adds. -/
def forest (pending : Pending) : Forest Element :=
  if pending.under?.isSome then hoist pending.above pending.node
  else [conversion pending.above pending.node]

/-- The elements that are still missing, in document order. -/
def elements (stack : List Pending) : List Element :=
  stack.flatMap fun pending => Tree.forestValues pending.forest

/-- The rows that are still missing in a draft of the given size. -/
def rows (size : Nat) : List Pending → List Placed
  | [] => []
  | pending :: stack =>
    rowsOfAll size pending.under? pending.forest ++ rows (size + elementCount pending.forest) stack

/-- The children that are put on a stack add what they contribute to their parent. -/
theorem elements_push (above : List String) (parent : Nat) (children : Forest Token)
    (stack : List Pending) :
    elements (push above (some parent) children stack) =
      Tree.forestValues (hoistAll above children) ++ elements stack := by
  induction children with
  | nil => simp [push, hoistAll, Tree.forestValues]
  | cons child rest ih =>
    rw [hoistAll, Tree.forestValues_append, List.append_assoc, ← ih]
    by_cases h : child.value.kept <;> simp [push, h, elements, forest, Tree.forestValues]

theorem rows_push (size : Nat) (above : List String) (parent : Nat) (children : Forest Token)
    (stack : List Pending) :
    rows size (push above (some parent) children stack) =
      rowsOfAll size (some parent) (hoistAll above children) ++
        rows (size + elementCount (hoistAll above children)) stack := by
  induction children generalizing size with
  | nil => simp [push, hoistAll, rowsOfAll]
  | cons child rest ih =>
    rw [hoistAll, rowsOfAll_append, List.append_assoc]
    by_cases h : child.value.kept
    · simp only [push, List.foldr_cons, h, if_true] at ih ⊢
      rw [rows, ih, elementCount_append, ← Nat.add_assoc]
      rfl
    · simp only [push, List.foldr_cons, h, if_false, Bool.false_eq_true] at ih ⊢
      rw [ih]
      simp [rowsOfAll]

/-- A waiting node that gets an element adds that element over what its children contribute. -/
theorem forest_of_kept {above : List String} {token : Token} {children : Forest Token}
    {under? : Option Nat} (h : ¬(under?.isSome && token.isWrapper) = true) :
    forest ⟨above, .node token children, under?⟩ =
      [.node (placedElement above token children) (hoistAll (token.type :: above) children)] := by
  rw [forest, hoist, conversion]
  cases under? with
  | none => simp
  | some parent =>
    have hplain : token.isWrapper = false := by simpa using h
    simp [hplain]

theorem elements_cons_of_kept {above : List String} {token : Token} {children : Forest Token}
    {under? : Option Nat} {stack : List Pending}
    (h : ¬(under?.isSome && token.isWrapper) = true) :
    elements (⟨above, .node token children, under?⟩ :: stack) =
      placedElement above token children ::
        (Tree.forestValues (hoistAll (token.type :: above) children) ++ elements stack) := by
  simp [elements, forest_of_kept h, Tree.forestValues, Tree.values]

theorem rows_cons_of_kept {size : Nat} {above : List String} {token : Token}
    {children : Forest Token} {under? : Option Nat} {stack : List Pending}
    (h : ¬(under?.isSome && token.isWrapper) = true) :
    rows size (⟨above, .node token children, under?⟩ :: stack) =
      ⟨under?, placedElement above token children⟩ ::
        (rowsOfAll (size + 1) (some size) (hoistAll (token.type :: above) children) ++
          rows (size + 1 + elementCount (hoistAll (token.type :: above) children)) stack) := by
  rw [rows, forest_of_kept h, elementCount_cons, length_values_node, elementCount_nil]
  simp only [rowsOfAll, rowsOf, List.cons_append, List.append_nil, Nat.add_zero]
  rw [Nat.add_comm (elementCount _) 1, Nat.add_assoc]

end Pending

/-- The loop adds the rows of all waiting nodes, unless one of their elements holds a text that
markup cannot hold. -/
theorem makeElements_eq (draft : Draft) (stack : List Pending) :
    makeElements draft stack = match illegalText? (Pending.elements stack) with
      | some text => .error (.illegalText text)
      | none => .ok (draft ++ (Pending.rows draft.size stack).toArray) := by
  fun_induction makeElements draft stack with
  | case1 draft => simp [Pending.elements, Pending.rows, illegalText?]
  | case2 draft above token children under? stack hdropped ih =>
    obtain ⟨hunder, hwrapper⟩ := Bool.and_eq_true_iff.1 hdropped
    obtain ⟨parent, rfl⟩ := Option.isSome_iff_exists.1 hunder
    have hforest : Pending.forest ⟨above, .node token children, some parent⟩ =
        hoistAll (token.type :: above) children := by
      rw [Pending.forest, hoist, if_pos hunder, if_pos hwrapper]
    rw [ih, Pending.elements_push, Pending.rows_push, Pending.rows, hforest]
    simp only [Pending.elements, List.flatMap_cons, hforest]
  | case3 draft above token children under? stack hkept error hchecked =>
    rw [Pending.elements_cons_of_kept hkept]
    rw [Element.checked_eq] at hchecked
    cases hillegal : (placedElement above token children).illegalText? with
    | none => simp [hillegal] at hchecked
    | some text =>
      simp only [hillegal, Except.error.injEq] at hchecked
      simp [illegalText?, hillegal, hchecked]
  | case4 draft above token children under? stack hkept element hchecked ih =>
    rw [Pending.elements_cons_of_kept hkept]
    rw [Element.checked_eq] at hchecked
    cases hillegal : (placedElement above token children).illegalText? with
    | some text => simp [hillegal] at hchecked
    | none =>
      simp only [hillegal, Except.ok.injEq] at hchecked
      subst hchecked
      rw [ih, Pending.elements_push, Pending.rows_push, Pending.rows_cons_of_kept hkept]
      simp [illegalText?, hillegal]

/-- The normalized tree is that of the recursion, unless one of its elements holds a text that
markup cannot hold. -/
theorem normalize_eq (tree : ParseTree) :
    normalize tree = match illegalText? (conversion [] tree).values with
      | some text => .error (.illegalText text)
      | none => .ok (conversion [] tree) := by
  have helements : Pending.elements [⟨[], tree, none⟩] = (conversion [] tree).values := by
    simp [Pending.elements, Pending.forest, Tree.forestValues]
  have hrows : Pending.rows 0 [⟨[], tree, none⟩] = rowsOf 0 none (conversion [] tree) := by
    simp [Pending.rows, Pending.forest, rowsOfAll]
  rw [normalize, makeElements_eq, helements]
  cases illegalText? (conversion [] tree).values with
  | some text => rfl
  | none =>
    simp only [Array.size_empty, hrows, Array.empty_append]
    exact congrArg (fun made => Except.ok (made.getD default)) (tree?_rowsOf _)

end Syntax
end FeatureCensus
