import FeatureCensus.Analysis.Recording
import FeatureCensus.Proofs.Syntax.Conversion
import FeatureCensus.Proofs.Syntax.Resemblance
import Mathlib.Logic.Relation

/-!
# Wrappers

A wrapper around some neighbouring declarations leaves no trace in the normalized tree: its
children stand where it stood, no element is asked about what hangs below a node that holds
declarations, and the search for an accessor passes wrappers by.  So any number of wrappers may be
put around declarations, also around other wrappers.

Main results:

- Theorem {lit}`Syntax.hoistAll_congr`: of the types above a node only the accessor among them
  matters.
- Theorem {lit}`Syntax.hoistAll_wrapped`: a wrapper contributes what stands in it.
- Theorem {lit}`Syntax.IsWrapping.conversion_eq`: one wrapper leaves the normalized tree alone.
- Theorem {lit}`Syntax.normalize_of_wrappings`: so do any number of them.
-/

namespace FeatureCensus
namespace Syntax

/-! ## Types above a node -/

/-- The search for an accessor passes wrappers by. -/
theorem isInsideAccessor_wrapper {type : String} (h : type ∈ wrapperTypes) (above : List String) :
    isInsideAccessor (type :: above) = isInsideAccessor above := by
  have hno : ∀ type ∈ wrapperTypes,
      accessorTypes.contains type = false ∧ accessorBounds.contains type = false := by decide
  rw [isInsideAccessor, (hno type h).1, (hno type h).2]
  rfl

theorem isInsideAccessor_cons_congr (type : String) {above other : List String}
    (h : isInsideAccessor above = isInsideAccessor other) :
    isInsideAccessor (type :: above) = isInsideAccessor (type :: other) := by
  rw [isInsideAccessor, isInsideAccessor, h]

theorem placedElement_congr {above other : List String}
    (h : isInsideAccessor above = isInsideAccessor other) (token : Token)
    (children : Forest Token) :
    placedElement above token children = placedElement other token children := by
  have hclassify : classify above token children = classify other token children := by
    simp only [classify, construct?, h]
  rw [placedElement, placedElement, hclassify]

mutual

theorem hoist_congr {above other : List String}
    (h : isInsideAccessor above = isInsideAccessor other) (child : ParseTree) :
    hoist above child = hoist other child := by
  cases child with
  | node token children =>
    rw [hoist, hoist, placedElement_congr h,
      hoistAll_congr (isInsideAccessor_cons_congr token.type h) children]

/-- Of the types above some nodes only the accessor among them matters. -/
theorem hoistAll_congr {above other : List String}
    (h : isInsideAccessor above = isInsideAccessor other) (children : Forest Token) :
    hoistAll above children = hoistAll other children := by
  cases children with
  | nil => rw [hoistAll, hoistAll]
  | cons child rest => rw [hoistAll, hoistAll, hoist_congr h child, hoistAll_congr h rest]

end

/-! ## One wrapper -/

theorem hoistAll_append (above : List String) (first second : Forest Token) :
    hoistAll above (first ++ second) = hoistAll above first ++ hoistAll above second := by
  rw [hoistAll_eq_flatMap, hoistAll_eq_flatMap, hoistAll_eq_flatMap, List.filter_append,
    List.flatMap_append]

/-- A kept wrapper contributes what stands in it. -/
theorem hoistAll_wrapped (above : List String) {wrapper : Token} (htype : wrapper.isWrapper = true)
    (hkept : wrapper.kept = true) (before run after : Forest Token) :
    hoistAll above (before ++ .node wrapper run :: after) =
      hoistAll above (before ++ run ++ after) := by
  have hinside : hoistAll (wrapper.type :: above) run = hoistAll above run :=
    hoistAll_congr (isInsideAccessor_wrapper (List.contains_iff_mem.1 htype) above) run
  rw [hoistAll_append, hoistAll_append, hoistAll_append, hoistAll, Tree.value_node, if_pos hkept,
    hoist, if_pos htype, hinside, List.append_assoc]

/-- That a tree is another one with a wrapper put around a run of neighbours below one of the
nodes that hold declarations. -/
inductive IsWrapping : ParseTree → ParseTree → Prop where
  | here {token wrapper : Token} (before run after : Forest Token)
      (hcontainer : token.type ∈ containerTypes) (htype : wrapper.isWrapper = true)
      (hnamed : wrapper.named = true) :
      IsWrapping (.node token (before ++ run ++ after))
        (.node token (before ++ .node wrapper run :: after))
  | inside {token : Token} {child wrapped : ParseTree} (before after : Forest Token)
      (hchild : IsWrapping child wrapped) :
      IsWrapping (.node token (before ++ child :: after))
        (.node token (before ++ wrapped :: after))

namespace IsWrapping

variable {tree wrapped : ParseTree}

theorem value_eq (h : IsWrapping tree wrapped) : wrapped.value = tree.value := by
  cases h <;> rfl

/-- Whatever element a node has above a tree, it also has above the wrapped tree. -/
theorem resembles (h : IsWrapping tree wrapped) : Resembles [tree] [wrapped] := by
  induction h with
  | here before run after hcontainer _ _ => exact .container hcontainer .nil
  | inside before after _ ih =>
    have hkids := (Resembles.refl before).append (ih.append (Resembles.refl after))
    exact .node hkids .nil

/-- What a node contributes follows from its element and from what its children contribute. -/
theorem node_congr {above : List String} {token : Token} {kids others : Forest Token}
    (helement : placedElement above token others = placedElement above token kids)
    (hkids : hoistAll (token.type :: above) others = hoistAll (token.type :: above) kids) :
    hoist above (.node token others) = hoist above (.node token kids) ∧
      conversion above (.node token others) = conversion above (.node token kids) := by
  rw [hoist, hoist, conversion, conversion, helement, hkids]
  exact ⟨rfl, rfl⟩

/-- One wrapper leaves the normalized tree alone, wherever the tree stands. -/
theorem conversion_eq (h : IsWrapping tree wrapped) (above : List String) :
    hoist above wrapped = hoist above tree ∧ conversion above wrapped = conversion above tree := by
  induction h generalizing above with
  | @here token wrapper before run after hcontainer htype hnamed =>
    have helement : placedElement above token (before ++ .node wrapper run :: after) =
        placedElement above token (before ++ run ++ after) := by
      rw [placedElement, placedElement, classify_of_container hcontainer]
    have hkept : wrapper.kept = true := by rw [Token.kept, hnamed, Bool.true_or]
    exact node_congr helement (hoistAll_wrapped _ htype hkept before run after)
  | @inside token child wrapped before after hchild ih =>
    have hkids := (Resembles.refl before).append (hchild.resembles.append (Resembles.refl after))
    have helement := hkids.placedElement_eq above token
    refine node_congr helement.symm ?_
    rw [hoistAll_append, hoistAll_append, hoistAll, hoistAll, hchild.value_eq, (ih _).1]

end IsWrapping

/-! ## Any number of wrappers -/

theorem conversion_of_wrappings {tree wrapped : ParseTree}
    (h : Relation.ReflTransGen IsWrapping tree wrapped) :
    conversion [] wrapped = conversion [] tree := by
  induction h with
  | refl => rfl
  | tail _ hstep ih => rw [(hstep.conversion_eq []).2, ih]

/-- Wrappers put around declarations, one after the other and also around each other, leave the
normalized tree alone, or the reason why there is none.  So any rules find in it what they found
before, and leave every session as they did. -/
theorem normalize_of_wrappings {tree wrapped : ParseTree}
    (h : Relation.ReflTransGen IsWrapping tree wrapped) :
    normalize wrapped = normalize tree ∧
      ∀ (rules : List Rule) (project : PlaceName) (path : Option String) (lines : LineIndex)
        (s : Session),
        (normalize wrapped).map
            (fun made => Analysis.analyzeFile rules project ⟨made, path, lines⟩ s) =
          (normalize tree).map
            fun made => Analysis.analyzeFile rules project ⟨made, path, lines⟩ s := by
  have hsame : normalize wrapped = normalize tree := by
    rw [normalize_eq, normalize_eq, conversion_of_wrappings h]
  exact ⟨hsame, fun rules project path lines s => by rw [hsame]⟩

/-- A property with a getter that reads the backing field. -/
def fieldProperty : ParseTree :=
  .node ⟨"property_declaration", 12, 45, true, false, none, []⟩
    [.node ⟨"getter", 26, 45, true, false, none, []⟩
      [.node ⟨"identifier", 40, 45, true, false, some "name", "field".toUTF8.toList⟩ []]]

/-- A class that has the property, below its wrappers. -/
def classWithField (aroundProperty : Forest Token → Forest Token) : ParseTree :=
  .node ⟨"class_declaration", 0, 47, true, false, none, []⟩
    [.node ⟨"class_body", 8, 47, true, false, none, []⟩ (aroundProperty [fieldProperty])]

/-- A file with that class, below its wrappers. -/
def fileWithField (aroundClass aroundProperty : Forest Token → Forest Token) : ParseTree :=
  .node ⟨"source_file", 0, 48, true, false, none, []⟩
    (aroundClass [classWithField aroundProperty])

/-- Declarations in a wrapper of a type. -/
def inWrapper (type : String) (kids : Forest Token) : Forest Token :=
  [.node ⟨type, 0, 0, true, false, none, []⟩ kids]

/-- One wrapper around the class and two around the property leave the six elements of the file
alone, one of which is the reference to the backing field. -/
theorem normalize_of_wrappings_fileWithField :
    Relation.ReflTransGen IsWrapping (fileWithField id id)
        (fileWithField (inWrapper "declaration")
          (inWrapper "class_member_declaration" ∘ inWrapper "declaration")) ∧
      normalize (fileWithField (inWrapper "declaration")
          (inWrapper "class_member_declaration" ∘ inWrapper "declaration")) =
        normalize (fileWithField id id) ∧
      (conversion [] (fileWithField id id)).values.map (·.tag) =
        [.known .file, .known .classDeclaration, .known .body, .known .property, .known .node,
          .known .fieldReference] := by
  have hmember : IsWrapping (fileWithField id id)
      (fileWithField id (inWrapper "class_member_declaration")) :=
    .inside [] [] (.inside [] [] (.here [] [fieldProperty] [] (by decide) (by decide) rfl))
  have hinner : IsWrapping (fileWithField id (inWrapper "class_member_declaration"))
      (fileWithField id (inWrapper "class_member_declaration" ∘ inWrapper "declaration")) :=
    .inside [] [] (.inside [] [] (.inside [] []
      (.here [] [fieldProperty] [] (by decide) (by decide) rfl)))
  have hclass : IsWrapping
      (fileWithField id (inWrapper "class_member_declaration" ∘ inWrapper "declaration"))
      (fileWithField (inWrapper "declaration")
        (inWrapper "class_member_declaration" ∘ inWrapper "declaration")) :=
    .here [] [classWithField (inWrapper "class_member_declaration" ∘ inWrapper "declaration")] []
      (by decide) (by decide) rfl
  have hall := ((Relation.ReflTransGen.single hmember).tail hinner).tail hclass
  exact ⟨hall, (normalize_of_wrappings hall).1, by decide +kernel⟩

end Syntax
end FeatureCensus
