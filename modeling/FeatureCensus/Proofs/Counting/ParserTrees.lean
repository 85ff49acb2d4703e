import FeatureCensus.Proofs.Counting.Recording
import FeatureCensus.Proofs.Syntax.Kinds
import FeatureCensus.Proofs.Syntax.Outline
import FeatureCensus.Proofs.Text.Numerals

/-!
# Counting in parser trees

The counters that look at the elements above an element or at its members count the visible
nodes of the parser tree that meet a condition on that tree.  Wrappers play no part in the
conditions, and an error is nothing else, whatever its type.

Main results:

- Theorem {lit}`Syntax.hasIntegers_element`: the numbers in elements are read back.
- Theorem {lit}`Kotlin.occursAt_image`: the feature of a counter occurs where the condition on
  the parser tree holds.
- Theorem {lit}`Kotlin.analyzeFile_counts_visible`: so the counters count the visible nodes.
-/

namespace FeatureCensus

open Syntax Text

namespace Syntax

/-! ## Numbers -/

/-- Whether the numbers that tell of a parser tree can be written in as many digits as are read:
where its nodes begin, and how many nodes there are. -/
structure IsMeasurable (tree : ParseTree) : Prop where
  start : ∀ token ∈ tree.values, token.start < 10 ^ digitLimit
  size : tree.values.length < 10 ^ digitLimit

theorem IsMeasurable.of_sublist {tree part : ParseTree} (h : IsMeasurable tree)
    (hpart : part.values.Sublist tree.values) : IsMeasurable part where
  start token htoken := h.start token (hpart.subset htoken)
  size := Nat.lt_of_le_of_lt hpart.length_le h.size

theorem values_ne_nil (tree : ParseTree) : 0 < tree.values.length := by
  cases tree
  exact Nat.zero_lt_succ _

theorem length_values_le_of_mem {child : ParseTree} {children : Forest Token}
    (h : child ∈ children) : child.values.length ≤ (Tree.forestValues children).length := by
  induction children with
  | nil => cases h
  | cons first rest ih =>
    rw [Tree.forestValues, List.length_append]
    rcases List.mem_cons.1 h with rfl | h
    · exact Nat.le_add_right ..
    · exact Nat.le_trans (ih h) (Nat.le_add_left ..)

/-- Among some nodes there are no more named ones of a type than there are nodes. -/
theorem countP_named_le (type : String) (children : Forest Token) :
    (namedChildren children).countP (·.value.type == type) ≤
      (Tree.forestValues children).length := by
  induction children with
  | nil => simp [namedChildren]
  | cons child rest ih =>
    have hchild := values_ne_nil child
    rw [namedChildren] at ih ⊢
    rw [Tree.forestValues, List.length_append, List.filter_cons]
    by_cases hnamed : child.value.named
    · rw [if_pos hnamed, List.countP_cons]
      split <;> omega
    · rw [if_neg hnamed]
      omega

/-- The class parameters among some nodes and in their parameter lists are no more than the
nodes at and below them. -/
theorem classParameters_le (children : Forest Token) (n : Nat) :
    classParameterCount children +
        ((namedChildren children).filter (·.value.type == "class_parameters")).foldl
          (fun count list => count + classParameterCount list.children) n ≤
      n + (Tree.forestValues children).length := by
  induction children generalizing n with
  | nil => simp [namedChildren, classParameterCount]
  | cons child rest ih =>
    obtain ⟨token, kids⟩ := child
    have hkids : classParameterCount kids ≤ (Tree.forestValues kids).length :=
      countP_named_le "class_parameter" kids
    have hlength : (Tree.forestValues (.node token kids :: rest)).length =
        (Tree.forestValues kids).length + 1 + (Tree.forestValues rest).length := by
      simp only [Tree.forestValues, Tree.values, List.length_append, List.length_cons]
    rw [hlength]
    unfold classParameterCount namedChildren at ih ⊢
    rw [List.filter_cons]
    by_cases hnamed : token.named
    · rw [Tree.value_node, if_pos hnamed, List.countP_cons, List.filter_cons, Tree.value_node]
      by_cases hlist : token.type == "class_parameters"
      · -- A list of parameters is no parameter itself.
        have hparameter : (token.type == "class_parameter") = false := by
          rw [eq_of_beq hlist]
          decide
        rw [if_pos hlist, hparameter, List.foldl_cons]
        have hrest := ih (n + classParameterCount kids)
        simp only [classParameterCount, namedChildren] at hrest hkids
        simp only [Tree.children_node, Bool.false_eq_true, if_false]
        omega
      · rw [if_neg hlist]
        have hrest := ih n
        split <;> omega
    · rw [Tree.value_node, if_neg hnamed]
      have hrest := ih n
      omega

theorem typeParameterCount_le (list : ParseTree) :
    typeParameterCount list ≤ list.values.length := by
  obtain ⟨token, children⟩ := list
  exact Nat.le_succ_of_le (countP_named_le "type_parameter" children)

theorem constructorParameterCount_le (constructor : ParseTree) :
    constructorParameterCount constructor ≤ constructor.values.length := by
  obtain ⟨token, children⟩ := constructor
  have hcount := classParameters_le children 0
  rw [Nat.zero_add] at hcount
  exact Nat.le_succ_of_le hcount

/-! ## Attributes -/

theorem attribute?_placedElement {name : String} (hstart : name ≠ "start") (hend : name ≠ "end")
    (above : List String) (token : Token) (children : Forest Token) :
    (placedElement above token children).attribute? name =
      (classify above token children).attributes.lookup name := by
  rw [placedElement, Element.attribute?, List.lookup_append,
    Association.lookup_cons_of_ne hstart, Association.lookup_cons_of_ne hend, List.lookup_nil,
    Option.or_none]

/-- An element tells where its node begins. -/
theorem attribute?_start (above : List String) (token : Token) (children : Forest Token) :
    (placedElement above token children).attribute? "start" = some (toString token.start) := by
  rw [placedElement, Element.attribute?, List.lookup_append, lookup_start_classify, Option.none_or,
    List.lookup_cons_self]

namespace Element

theorem number_of_none {e : Element} {name : String} (h : e.attribute? name = none) :
    e.number name = .ok 0 := by
  rw [number, h]

theorem number_of_toString {e : Element} {name : String} {n : Nat}
    (h : e.attribute? name = some (toString n)) (hn : n < 10 ^ digitLimit) :
    e.number name = .ok n := by
  rw [number, h]
  exact parseInteger_toString hn

end Element

namespace Spot

/-- Whether the node is an error. -/
def isError (p : Spot) : Bool :=
  p.here.value.isError

/-- Whether the node is of one of the given types and was not supplied. -/
def isA (types : List String) (p : Spot) : Bool :=
  types.contains p.here.value.type && !p.here.value.missing

/-- Whether the first list of type parameters of the node declares any. -/
def declaresTypeParameters (p : Spot) : Bool :=
  ((childOfType? ["type_parameters"] p.here.children).map fun list =>
    (namedChildren list.children).any (·.value.type == "type_parameter")).getD false

theorem isOf_element {kind : Kind} {types : List String} (h : (kind, types) ∈ typesByKind)
    (p : Spot) : p.element.isOf kind = p.isA types :=
  isOf_classify h _ _ _

theorem isOf_class_element (p : Spot) :
    p.element.isOf .classDeclaration = p.isA ["class_declaration"] :=
  isOf_element (by decide) p

theorem isOf_error_element (p : Spot) : p.element.isOf .error = p.isError :=
  isOf_error_classify _ _ _

theorem attribute?_of_class {p : Spot} (h : p.isA ["class_declaration"] = true) {name : String}
    (hstart : name ≠ "start") (hend : name ≠ "end") :
    p.element.attribute? name = (classAttributes p.here.children).lookup name := by
  obtain ⟨htype, hmissing⟩ := Bool.and_eq_true_iff.1 h
  rw [element, attribute?_placedElement hstart hend,
    classify_class _ _ (by simpa using htype) (by simpa using hmissing)]

theorem attribute?_of_function {p : Spot} (h : p.isA ["function_declaration"] = true)
    {name : String} (hstart : name ≠ "start") (hend : name ≠ "end") :
    p.element.attribute? name = (functionAttributes p.here.children).lookup name := by
  obtain ⟨htype, hmissing⟩ := Bool.and_eq_true_iff.1 h
  rw [element, attribute?_placedElement hstart hend,
    classify_function _ _ (by simpa using htype) (by simpa using hmissing)]

theorem attribute?_typeParameters {p : Spot} (h : p.isA ["class_declaration"] = true) :
    p.element.attribute? "type_parameters" =
      (childOfType? ["type_parameters"] p.here.children).map fun list =>
        toString (typeParameterCount list) := by
  rw [attribute?_of_class h (by decide) (by decide), lookup_classAttributes]
  cases childOfType? ["type_parameters"] p.here.children <;>
    simp [lookup_constructorAttributes]

theorem attribute?_constructorParameters {p : Spot} (h : p.isA ["class_declaration"] = true) :
    p.element.attribute? "constructor_parameters" =
      (childOfType? ["primary_constructor"] p.here.children).map fun constructor =>
        toString (constructorParameterCount constructor) := by
  rw [attribute?_of_class h (by decide) (by decide), lookup_classAttributes]
  cases childOfType? ["primary_constructor"] p.here.children <;>
    simp [lookup_constructorAttributes]

/-- The number in an attribute of a class that is made of a child is read back. -/
theorem number_of_child {p : Spot} (h : IsMeasurable p.here) {name type : String}
    {count : ParseTree → Nat} (hcount : ∀ child, count child ≤ child.values.length)
    (hattribute : p.element.attribute? name =
      (childOfType? [type] p.here.children).map fun child => toString (count child)) :
    p.element.number name =
      .ok (((childOfType? [type] p.here.children).map count).getD 0 : Nat) := by
  cases hchild : childOfType? [type] p.here.children with
  | none => exact Element.number_of_none (by rw [hattribute, hchild]; rfl)
  | some child =>
    have hmem := (childOfType?_eq_some hchild).1
    obtain ⟨above, token, children⟩ := p
    have hsmall : count child < 10 ^ digitLimit := by
      refine Nat.lt_of_le_of_lt (hcount child) (Nat.lt_of_le_of_lt ?_ h.size)
      exact Nat.le_succ_of_le (length_values_le_of_mem hmem)
    exact Element.number_of_toString (by rw [hattribute, hchild]; rfl) hsmall

end Spot

/-- The numbers in the element of a node are read back. -/
theorem hasIntegers_element {p : Spot} (h : IsMeasurable p.here) : p.element.HasIntegers where
  start := ⟨_, Element.number_of_toString (attribute?_start _ _ _)
    (h.start _ (Tree.value_mem_values p.here))⟩
  typeParameters hclass := by
    rw [Spot.isOf_class_element] at hclass
    exact ⟨_, Spot.number_of_child h typeParameterCount_le (Spot.attribute?_typeParameters hclass)⟩
  constructorParameters hclass := by
    rw [Spot.isOf_class_element] at hclass
    exact ⟨_, Spot.number_of_child h constructorParameterCount_le
      (Spot.attribute?_constructorParameters hclass)⟩

/-! ## Conditions on the parser tree -/

namespace Spot

/-- The nearest node above that is the root or no wrapper. -/
def effectiveParent? (p : Spot) : Option Spot :=
  p.effectiveAncestors.head?

/-- Objects whose effective parent is a source file. -/
def isTopLevelObject (p : Spot) : Bool :=
  p.isA ["object_declaration", "companion_object"] &&
    (p.effectiveParent?.map (isA ["source_file"])).getD false

/-- Inner classes in a class that declares type parameters. -/
def isInnerOfGenericClass (p : Spot) : Bool :=
  p.isA ["class_declaration"] && (modifiers p.here.children).contains "inner" &&
    p.enclosing.any fun q : Spot => q.isA ["class_declaration"] && q.declaresTypeParameters

/-- Functions with a receiver in a class. -/
def isExtensionInClass (p : Spot) : Bool :=
  p.isA ["function_declaration"] && hasReceiver p.here.children &&
    p.enclosing.any (isA ["class_declaration"])

/-- The types of the nodes that are member declarations. -/
def memberTypes : List String :=
  ["class_declaration", "object_declaration", "companion_object", "function_declaration",
    "property_declaration", "enum_entry", "secondary_constructor", "anonymous_initializer",
    "type_alias"]

/-- The members in the first body of a node. -/
def members (p : Spot) : List Spot :=
  match p.effectiveChildren.find? (isA ["class_body", "enum_class_body"]) with
  | none => []
  | some body => body.effectiveChildren.filter (isA memberTypes)

/-- Whether an enum entry follows some other member. -/
def hasLateEntry : List Spot → Bool
  | [] => false
  | member :: rest =>
    (!member.isA ["enum_entry"] && rest.any (isA ["enum_entry"])) || hasLateEntry rest

/-- Enum classes in which an enum entry follows some other member. -/
def isMixedEnum (p : Spot) : Bool :=
  p.isA ["class_declaration"] &&
    ((modifiers p.here.children).contains "enum" ||
      hasChildOfType "enum_class_body" p.here.children) &&
    hasLateEntry p.members

end Spot

end Syntax

namespace Kotlin

/-- The counters that look at nodes above or at members, with the conditions on the nodes of the
parser tree that they count. -/
def structuralCounters : List (String × (Spot → Bool)) :=
  [("syntax_errors", Spot.isError),
    ("top_level_objects", Spot.isTopLevelObject),
    ("inner_classes_with_outer_type_parameters", Spot.isInnerOfGenericClass),
    ("extension_functions_in_classes", Spot.isExtensionInClass),
    ("enums_with_entries_and_members_mixed", Spot.isMixedEnum)]

/-! ### Features at visible nodes -/

@[simp]
theorem element_image (p : Spot) : Site.element (Spot.image p) = p.element :=
  value_conversion _ _

/-- A wrapper is no class, so what is asked of classes above a node is asked of its effective
ancestors. -/
theorem isBelow_image {p : Spot} {test : Element → Bool} {condition : Spot → Bool}
    (htest : ∀ q ∈ p.enclosing, test (Spot.element q) = condition q)
    (hclass : ∀ q, condition q = true → Spot.isA ["class_declaration"] q = true) :
    isBelow test p.image = p.enclosing.any condition := by
  rw [isBelow, Spot.image, List.any_map, Spot.effectiveAncestors, List.any_filter,
    Bool.eq_iff_iff, List.any_eq_true, List.any_eq_true]
  refine exists_congr fun q => and_congr_right fun hq => ?_
  rw [Function.comp_apply, htest q hq, Bool.and_eq_true_iff]
  refine ⟨And.right, fun hcondition => ⟨?_, hcondition⟩⟩
  have htype : q.here.value.type = "class_declaration" := by
    simpa using (Bool.and_eq_true_iff.1 (hclass q hcondition)).1
  simp [Spot.isPlain, Token.isWrapper, wrapperTypes, htype]

theorem isGenericClass_element {p : Spot} (h : IsMeasurable p.here) :
    isGenericClass p.element = (p.isA ["class_declaration"] && p.declaresTypeParameters) := by
  rw [isGenericClass, Spot.isOf_class_element]
  cases hclass : p.isA ["class_declaration"] with
  | false => rfl
  | true =>
    have hnumber := Spot.number_of_child h typeParameterCount_le
      (Spot.attribute?_typeParameters hclass)
    have hpositive : 0 < p.element.integer "type_parameters" ↔ p.declaresTypeParameters = true := by
      rw [Element.integer, hnumber, Spot.declaresTypeParameters]
      cases childOfType? ["type_parameters"] p.here.children with
      | none => simp [Except.toOption]
      | some list =>
        simp only [Except.toOption, Option.map_some, Option.getD_some]
        rw [Int.natCast_pos, typeParameterCount, List.countP_pos_iff, List.any_eq_true]
    rw [Bool.true_and, Bool.true_and, Bool.eq_iff_iff, decide_eq_true_iff]
    exact hpositive

theorem syntaxErrors_image (p : Spot) : occursAt "syntax_errors" p.image = p.isError := by
  have hmem : ⟨"syntax_errors", .error, always⟩ ∈ features := by simp [features, tests]
  rw [occursAt_key hmem, Feature.occursAt, element_image, Spot.isOf_error_element]
  exact Bool.and_true _

/-- The feature of a counter occurs at the nodes of some types that pass its test. -/
theorem occursAt_image {key : String} {kind : Kind} {test : Site → Bool} {types : List String}
    (hmem : ⟨key, kind, test⟩ ∈ features) (hkind : (kind, types) ∈ typesByKind) (p : Spot) :
    occursAt key p.image = (p.isA types && test p.image) := by
  rw [occursAt_key hmem, Feature.occursAt, element_image, Spot.isOf_element hkind]

theorem topLevelObjects_image (p : Spot) :
    occursAt "top_level_objects" p.image = p.isTopLevelObject := by
  have hmem : ⟨"top_level_objects", .object, isDirectlyBelow (·.isOf .file)⟩ ∈ features := by
    simp [features, tests, objectTests]
  have hobject : (Kind.object, ["object_declaration", "companion_object"]) ∈ typesByKind := by
    decide
  have hfile : (Kind.file, ["source_file"]) ∈ typesByKind := by decide
  rw [occursAt_image hmem hobject, Spot.isTopLevelObject, Spot.effectiveParent?]
  congr 1
  unfold isDirectlyBelow Spot.image
  cases p.effectiveAncestors with
  | nil => rfl
  | cons parent above => exact Spot.isOf_element hfile parent

theorem sets_inner_image {p : Spot} (h : p.isA ["class_declaration"] = true) :
    sets "inner" p.image = (modifiers p.here.children).contains "inner" := by
  rw [sets, element_image, Element.isSet, Spot.attribute?_of_class h (by decide) (by decide),
    lookup_classAttributes]
  cases (modifiers p.here.children).contains "inner" <;> simp [lookup_constructorAttributes]

theorem sets_enum_image {p : Spot} (h : p.isA ["class_declaration"] = true) :
    sets "enum" p.image = ((modifiers p.here.children).contains "enum" ||
      hasChildOfType "enum_class_body" p.here.children) := by
  rw [sets, element_image, Element.isSet, Spot.attribute?_of_class h (by decide) (by decide),
    lookup_classAttributes]
  cases (modifiers p.here.children).contains "enum" ||
    hasChildOfType "enum_class_body" p.here.children <;> simp [lookup_constructorAttributes]

theorem sets_receiver_image {p : Spot} (h : p.isA ["function_declaration"] = true) :
    sets "receiver" p.image = hasReceiver p.here.children := by
  rw [sets, element_image, Element.isSet, Spot.attribute?_of_function h (by decide) (by decide),
    functionAttributes, List.lookup_append, lookup_flag, lookup_flag]
  cases hasReceiver p.here.children <;> rfl

theorem innerOfGenericClass_image {p : Spot} (h : ∀ q ∈ p.enclosing, IsMeasurable q.here) :
    occursAt "inner_classes_with_outer_type_parameters" p.image = p.isInnerOfGenericClass := by
  have hmem : ⟨"inner_classes_with_outer_type_parameters", .classDeclaration, fun site =>
      sets "inner" site && isBelow isGenericClass site⟩ ∈ features := by
    simp [features, tests, classTests, innerTests]
  have hkind : (Kind.classDeclaration, ["class_declaration"]) ∈ typesByKind := by decide
  have habove : isBelow isGenericClass p.image =
      p.enclosing.any fun q : Spot => q.isA ["class_declaration"] && q.declaresTypeParameters :=
    isBelow_image (fun q hq => isGenericClass_element (h q hq))
      (fun q hq => (Bool.and_eq_true_iff.1 hq).1)
  rw [occursAt_image hmem hkind, Spot.isInnerOfGenericClass, habove]
  cases hclass : p.isA ["class_declaration"] with
  | false => rfl
  | true => rw [sets_inner_image hclass, Bool.true_and, Bool.true_and]

theorem extensionInClass_image (p : Spot) :
    occursAt "extension_functions_in_classes" p.image = p.isExtensionInClass := by
  have hmem : ⟨"extension_functions_in_classes", .function, fun site =>
      sets "receiver" site && isBelow (·.isOf .classDeclaration) site⟩ ∈ features := by
    simp [features, tests, functionTests]
  have hfunction : (Kind.function, ["function_declaration"]) ∈ typesByKind := by decide
  have habove : isBelow (·.isOf .classDeclaration) p.image =
      p.enclosing.any (Spot.isA ["class_declaration"]) :=
    isBelow_image (fun q _ => Spot.isOf_class_element q) (fun _ hq => hq)
  rw [occursAt_image hmem hfunction, Spot.isExtensionInClass, habove]
  cases hreceiver : p.isA ["function_declaration"] with
  | false => rfl
  | true => rw [sets_receiver_image hreceiver, Bool.true_and, Bool.true_and]

/-! ### Members -/

theorem any_of_hasLateEntry {spots : List Spot} (h : Spot.hasLateEntry spots = true) :
    spots.any (Spot.isA ["enum_entry"]) = true := by
  induction spots with
  | nil => cases h
  | cons member rest ih =>
    rw [Spot.hasLateEntry, Bool.or_eq_true_iff] at h
    rw [List.any_cons, Bool.or_eq_true_iff]
    rcases h with hhere | hrest
    · exact Or.inr (Bool.and_eq_true_iff.1 hhere).2
    · exact Or.inr (ih hrest)

theorem isOf_here_image {kind : Kind} {types : List String} (h : (kind, types) ∈ typesByKind)
    (p : Spot) : (Spot.image p).here.value.isOf kind = p.isA types := by
  rw [show (Spot.image p).here.value = p.element from element_image p, Spot.isOf_element h]

/-- Outside the entries that a list of members begins with, any entry is mixed in. -/
theorem mixedAfter_image (spots : List Spot) :
    mixedAfter true (spots.map fun q => (Spot.image q).here) = Spot.hasLateEntry spots ∧
      mixedAfter false (spots.map fun q => (Spot.image q).here) =
        spots.any (Spot.isA ["enum_entry"]) := by
  induction spots with
  | nil => exact ⟨rfl, rfl⟩
  | cons member rest ih =>
    have hentry : (Kind.enumEntry, ["enum_entry"]) ∈ typesByKind := by decide
    rw [List.map_cons, mixedAfter, mixedAfter, isOf_here_image hentry, Spot.hasLateEntry,
      List.any_cons, ih.1, ih.2]
    cases hmember : member.isA ["enum_entry"] with
    | true => exact ⟨rfl, rfl⟩
    | false =>
      refine ⟨?_, rfl⟩
      cases hlate : Spot.hasLateEntry rest with
      | false => simp
      | true => simp [any_of_hasLateEntry hlate]

theorem isMember_here_image (p : Spot) :
    isMember (Spot.image p).here.value = p.isA Spot.memberTypes := by
  have hclass : (Kind.classDeclaration, ["class_declaration"]) ∈ typesByKind := by decide
  have hobject : (Kind.object, ["object_declaration", "companion_object"]) ∈ typesByKind := by
    decide
  have hfunction : (Kind.function, ["function_declaration"]) ∈ typesByKind := by decide
  have hproperty : (Kind.property, ["property_declaration"]) ∈ typesByKind := by decide
  have hentry : (Kind.enumEntry, ["enum_entry"]) ∈ typesByKind := by decide
  have hother : (Kind.declaration,
      ["secondary_constructor", "anonymous_initializer", "type_alias"]) ∈ typesByKind := by decide
  simp only [isMember, memberKinds, List.any_cons, List.any_nil, isOf_here_image hclass,
    isOf_here_image hobject, isOf_here_image hfunction, isOf_here_image hproperty,
    isOf_here_image hentry, isOf_here_image hother]
  cases hmissing : p.here.value.missing <;>
    simp [Spot.isA, Spot.memberTypes, hmissing, Bool.or_assoc]

theorem declarations_image (p : Spot) :
    declarations (Spot.image p).here = p.members.map fun q => (Spot.image q).here := by
  have hbody : (Kind.body, ["class_body", "enum_class_body"]) ∈ typesByKind := by decide
  have hfind : (Spot.image p).here.children.find? (·.value.isOf .body) =
      (p.effectiveChildren.find? (Spot.isA ["class_body", "enum_class_body"])).map
        fun q => (Spot.image q).here := by
    rw [children_image, List.find?_map]
    congr 2
    funext q
    exact isOf_here_image hbody q
  rw [declarations, hfind, Spot.members]
  cases p.effectiveChildren.find? (Spot.isA ["class_body", "enum_class_body"]) with
  | none => rfl
  | some body =>
    simp only [Option.map_some]
    rw [children_image, List.filter_map]
    congr 2
    funext q
    exact isMember_here_image q

theorem mixedEnum_image (p : Spot) :
    occursAt "enums_with_entries_and_members_mixed" p.image = p.isMixedEnum := by
  have hmem : ⟨"enums_with_entries_and_members_mixed", .classDeclaration, fun site =>
      sets "enum" site && hasEntriesAndMembersMixed site.here⟩ ∈ features := by
    simp [features, tests, classTests, enumTests]
  have hkind : (Kind.classDeclaration, ["class_declaration"]) ∈ typesByKind := by decide
  have hmixed : hasEntriesAndMembersMixed (Spot.image p).here = Spot.hasLateEntry p.members := by
    rw [hasEntriesAndMembersMixed, declarations_image, (mixedAfter_image _).1]
  rw [occursAt_image hmem hkind, Spot.isMixedEnum, hmixed]
  cases hclass : p.isA ["class_declaration"] with
  | false => rfl
  | true => rw [sets_enum_image hclass, Bool.true_and, Bool.true_and]

/-! ### Counting -/

/-- At each node of a measurable tree the features of the structural counters occur where their
conditions hold. -/
theorem occursAt_structural {tree : ParseTree} (h : IsMeasurable tree) {p : Spot}
    (hp : p ∈ tree.positions) {entry : String × (Spot → Bool)}
    (hentry : entry ∈ structuralCounters) :
    occursAt entry.1 p.image = entry.2 p := by
  have habove : ∀ q ∈ p.enclosing, IsMeasurable q.here := by
    intro q hq
    have hmem : q.here ∈ p.ancestors := by
      rw [← Tree.Position.map_here_enclosing]
      exact List.mem_map_of_mem hq
    exact h.of_sublist ((Tree.sublist_of_mem_positions hp).2 _ hmem)
  simp only [structuralCounters, List.mem_cons, List.not_mem_nil, or_false] at hentry
  rcases hentry with rfl | rfl | rfl | rfl | rfl
  · exact syntaxErrors_image p
  · exact topLevelObjects_image p
  · exact innerOfGenericClass_image habove
  · exact extensionInClass_image p
  · exact mixedEnum_image p

/-- The numbers in the normalized tree of a measurable tree are read back. -/
theorem hasIntegers_conversion {tree : ParseTree} (h : IsMeasurable tree) :
    ∀ e ∈ (conversion [] tree).values, e.HasIntegers := by
  intro e he
  rw [← Tree.map_value_visits, visits_conversion, List.map_map] at he
  obtain ⟨p, hp, rfl⟩ := List.mem_map.1 he
  have hpart := (Tree.sublist_of_mem_positions (List.mem_filter.1 hp).1).1
  rw [Function.comp_apply, show (Spot.image p).here.value = p.element from element_image p]
  exact hasIntegers_element (h.of_sublist hpart)

theorem eq_conversion_of_normalize {tree : ParseTree} {made : ElementTree}
    (h : normalize tree = .ok made) : made = conversion [] tree := by
  rw [normalize_eq] at h
  split at h
  · cases h
  · exact (Except.ok.inj h).symm

/-- The analysis of the normalized tree of a parser tree adds to the structural counters the
numbers of visible nodes of the parser tree that meet their conditions. -/
theorem analyzeFile_counts_visible (project : PlaceName) {tree : ParseTree} {file : ParsedFile}
    {s : Session} (hkeys : s.keys = catalog.keys) (hfile : normalize tree = .ok file.tree)
    (h : IsMeasurable tree) :
    ∃ t, Analysis.analyzeFile rules project file s = (t, none) ∧
      ∀ entry ∈ structuralCounters, ∃ before after,
        s.counter? entry.1 = some before ∧ t.counter? entry.1 = some after ∧
        after.count = before.count + (visibleSpots tree).countP entry.2 := by
  have htree : file.tree = conversion [] tree := eq_conversion_of_normalize hfile
  have hintegers : ∀ e ∈ file.tree.values, e.HasIntegers := by
    rw [htree]
    exact hasIntegers_conversion h
  obtain ⟨counters, ht, -, hcounters⟩ := analyzeFile_eq project hkeys hintegers
  refine ⟨_, ht, fun entry hentry => ?_⟩
  have hknown : ∀ entry ∈ structuralCounters, entry.1 ∈ catalog.keys := by decide
  obtain ⟨before, after, hbefore, hafter, hcount, -⟩ :=
    exists_takes (hkeys ▸ hknown entry hentry) (hcounters entry.1)
  refine ⟨before, after, hbefore, hafter, hcount.trans ?_⟩
  rw [htree, visits_conversion, List.countP_map]
  congr 1
  refine List.countP_congr fun p hp => ?_
  rw [Function.comp_apply, occursAt_structural h (List.mem_filter.1 hp).1 hentry]

/-- A named node without fields. -/
def named (type : String) (start : Nat) (text : String) (children : Forest Token) : ParseTree :=
  .node ⟨type, start, start, true, false, none, text.toUTF8.toList⟩ children

/-- A file with an inner class in a generic class and an object, both behind wrappers. -/
def wrappedSource : ParseTree :=
  named "source_file" 0 ""
    [named "declaration" 0 ""
      [named "class_declaration" 0 ""
        [named "type_parameters" 7 "" [named "type_parameter" 8 "T" []],
          named "class_body" 11 ""
            [named "class_member_declaration" 15 ""
              [named "declaration" 15 ""
                [named "class_declaration" 15 ""
                  [named "modifiers" 15 "" [named "class_modifier" 15 "inner" []]]]]]]],
      named "declaration" 31 "" [named "object_declaration" 31 "" []]]

/-- In the wrapped source the inner class is counted, and so is the object. -/
theorem analyzeFile_wrappedSource :
    (Session.ofSpecs catalog false).keys = catalog.keys ∧
      normalize wrappedSource = .ok (conversion [] wrappedSource) ∧
      IsMeasurable wrappedSource ∧
      ∃ t, Analysis.analyzeFile rules (.text "p")
          ⟨conversion [] wrappedSource, none, ⟨#[0]⟩⟩ (.ofSpecs catalog false) = (t, none) ∧
        (∃ inner, t.counter? "inner_classes_with_outer_type_parameters" = some inner ∧
          inner.count = 1) ∧
        ∃ top, t.counter? "top_level_objects" = some top ∧ top.count = 1 := by
  have hkeys : (Session.ofSpecs catalog false).keys = catalog.keys := by decide
  have hnormal : normalize wrappedSource = .ok (conversion [] wrappedSource) := by
    have hlegal : illegalText? (conversion [] wrappedSource).values = none := by decide +kernel
    rw [normalize_eq, hlegal]
  have hmeasurable : IsMeasurable wrappedSource := by
    have hpow : 10 ^ 2 ≤ 10 ^ digitLimit := Nat.pow_le_pow_right (by decide) (by decide)
    have hstart : ∀ token ∈ wrappedSource.values, token.start < 10 ^ 2 := by decide
    exact ⟨fun token htoken => Nat.lt_of_lt_of_le (hstart token htoken) hpow,
      Nat.lt_of_lt_of_le (by decide : wrappedSource.values.length < 10 ^ 2) hpow⟩
  obtain ⟨t, ht, hcounters⟩ := @analyzeFile_counts_visible (.text "p") wrappedSource
    ⟨conversion [] wrappedSource, none, ⟨#[0]⟩⟩ _ hkeys hnormal hmeasurable
  refine ⟨hkeys, hnormal, hmeasurable, t, ht, ?_, ?_⟩
  · obtain ⟨before, after, hbefore, hafter, hcount⟩ :=
      hcounters ("inner_classes_with_outer_type_parameters", Spot.isInnerOfGenericClass)
        (by simp [structuralCounters])
    obtain rfl : before = .empty _ _ := (Option.some.inj hbefore).symm
    exact ⟨after, hafter, hcount.trans (by decide +kernel)⟩
  · obtain ⟨before, after, hbefore, hafter, hcount⟩ :=
      hcounters ("top_level_objects", Spot.isTopLevelObject) (by simp [structuralCounters])
    obtain rfl : before = .empty _ _ := (Option.some.inj hbefore).symm
    exact ⟨after, hafter, hcount.trans (by decide +kernel)⟩

end Kotlin
end FeatureCensus
