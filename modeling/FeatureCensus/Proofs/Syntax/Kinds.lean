import FeatureCensus.Association
import FeatureCensus.Syntax.Classify

/-!
# Kinds by type

The kind of the element of a node follows from the type of the node, unless it is an error:
the few kinds that depend on more than that are those of labels, jumps, field references and
plain nodes.  So the elements of a kind whose types are listed here come from the nodes of
those types, and the attributes that tell of a class or function are those of its children.

Main results:

- Theorem {lit}`Syntax.fits_classify`: the kind of an element follows from the type.
- Theorem {lit}`Syntax.isOf_classify`: the nodes of which an element of a kind is made.
- Theorem {lit}`Syntax.isOf_error_classify`: the errors are what the parser could not read and
  what it supplied.
-/

namespace FeatureCensus
namespace Syntax

/-! ## Kinds -/

/-- Whether a node is an error: what the parser could not read, or a token that it had to
supply. -/
def Token.isError (t : Token) : Bool :=
  t.type == "ERROR" || t.missing

/-- The types that decide the kind, with the kind. -/
def kindsByType : List (String × Kind) :=
  simpleKinds ++
    [("class_declaration", .classDeclaration),
      ("object_declaration", .object),
      ("companion_object", .object),
      ("enum_entry", .enumEntry),
      ("function_declaration", .function),
      ("anonymous_function", .lambda),
      ("return_expression", .jump),
      ("when_expression", .whenBranches),
      ("property_declaration", .property),
      ("type_parameter", .typeParameter),
      ("type_projection", .typeArgument),
      ("range_expression", .binary),
      ("as_expression", .typeCast)]

/-- The kinds of nodes of other types. -/
def looseKinds : List Kind := [.label, .jump, .fieldReference, .node]

/-- Whether a kind is that of a type, or one of the loose kinds where the type decides none. -/
def IsKindOf (type : String) (kind : Kind) : Prop :=
  match kindsByType.lookup type with
  | some decided => kind = decided
  | none => kind ∈ looseKinds

/-! ## Attributes -/

@[simp]
theorem lookup_flag (name : String) (set : Bool) (key : String) :
    (flag name set).lookup key =
      if key == name && set then some Element.setValue else none := by
  cases set <;> cases h : key == name <;> simp [flag, h]

@[simp]
theorem lookup_optional (name : String) (value? : Option String) (key : String) :
    (optional name value?).lookup key = if key == name then value? else none := by
  cases value? <;> cases h : key == name <;> simp [optional, h]

/-- The attributes for a primary constructor are two, of these names. -/
theorem lookup_constructorAttributes (constructor : ParseTree) (key : String) :
    (constructorAttributes constructor).lookup key =
      if key == "constructor_visibility" then
        (modifiers constructor.children).find? visibilities.contains
      else if key == "constructor_parameters" then
        some (toString (constructorParameterCount constructor))
      else none := by
  by_cases hvisibility : key == "constructor_visibility"
  · have hparameters : (key == "constructor_parameters") = false := by
      rw [eq_of_beq hvisibility]
      decide
    simp [constructorAttributes, List.lookup_append, hvisibility, hparameters]
  · cases hparameters : key == "constructor_parameters" <;>
      simp_all [constructorAttributes, List.lookup_append]

/-- An attribute of a class is found in the part that it belongs to. -/
theorem lookup_classAttributes (children : Forest Token) (key : String) :
    (classAttributes children).lookup key =
      (((((if key == "enum" && ((modifiers children).contains "enum" ||
            hasChildOfType "enum_class_body" children) then some Element.setValue else none).or
        (if key == "inner" && (modifiers children).contains "inner" then
          some Element.setValue else none)).or
        (if key == "interface" && hasChildOfType "interface" children then
          some Element.setValue else none)).or
        (if key == "type_parameters" then
          (childOfType? ["type_parameters"] children).map fun list =>
            toString (typeParameterCount list) else none)).or
        ((childOfType? ["primary_constructor"] children).bind fun constructor =>
          (constructorAttributes constructor).lookup key)) := by
  simp only [classAttributes, List.lookup_append, lookup_flag, lookup_optional]
  cases childOfType? ["primary_constructor"] children <;> rfl

theorem lookup_start_classAttributes (children : Forest Token) :
    (classAttributes children).lookup "start" = none := by
  rw [lookup_classAttributes]
  simp [lookup_constructorAttributes]

theorem lookup_start_functionAttributes (children : Forest Token) :
    (functionAttributes children).lookup "start" = none := by
  rw [functionAttributes, List.lookup_append, lookup_flag, lookup_flag]
  rfl

/-! ## Classification -/

/-- Whether an element is of a kind that its type allows, and leaves it open where it begins. -/
def Fits (type : String) (e : Element) : Prop :=
  ∃ kind attributes, e = ⟨.known kind, attributes⟩ ∧ IsKindOf type kind ∧
    attributes.lookup "start" = none

theorem fits_of_decided {type : String} {kind : Kind} {attributes : List (String × String)}
    (hkind : kindsByType.lookup type = some kind) (hstart : attributes.lookup "start" = none) :
    Fits type ⟨.known kind, attributes⟩ :=
  ⟨kind, attributes, rfl, by rw [IsKindOf, hkind], hstart⟩

theorem fits_of_loose {type : String} {kind : Kind} {attributes : List (String × String)}
    (hkind : kindsByType.lookup type = none) (hmem : kind ∈ looseKinds)
    (hstart : attributes.lookup "start" = none) : Fits type ⟨.known kind, attributes⟩ :=
  ⟨kind, attributes, rfl, by rw [IsKindOf, hkind]; exact hmem, hstart⟩

theorem fits_construct? (above : List String) {token : Token} (children : Forest Token)
    (h : simpleKinds.lookup token.type = none) :
    Fits token.type
      ((construct? above token children).getD ⟨.known .node, [("type", token.type)]⟩) := by
  have hnode : kindsByType.lookup token.type = none →
      Fits token.type ⟨.known .node, [("type", token.type)]⟩ := fun hkind =>
    fits_of_loose hkind (by decide) rfl
  unfold construct?
  split
  case h_1 htype => exact fits_of_decided (htype ▸ rfl) (lookup_start_classAttributes children)
  case h_2 htype => exact fits_of_decided (htype ▸ rfl) rfl
  case h_3 htype => exact fits_of_decided (htype ▸ rfl) rfl
  case h_4 htype => exact fits_of_decided (htype ▸ rfl) (lookup_flag ..)
  case h_5 htype => exact fits_of_decided (htype ▸ rfl) (lookup_start_functionAttributes children)
  case h_6 htype => exact fits_of_decided (htype ▸ rfl) (lookup_flag ..)
  case h_7 htype =>
    split
    · exact fits_of_loose (htype ▸ rfl) (by decide) rfl
    · exact hnode (htype ▸ rfl)
  case h_8 htype =>
    cases hjump : labeledJump? children with
    | none => exact hnode (htype ▸ rfl)
    | some attributes =>
      simp only [labeledJump?, Option.bind_eq_bind, Option.bind_eq_some_iff, Option.pure_def,
        Option.some.injEq] at hjump
      obtain ⟨marker, -, keyword, -, rfl⟩ := hjump
      exact fits_of_loose (htype ▸ rfl) (by decide) rfl
  case h_9 htype => exact fits_of_decided (htype ▸ rfl) rfl
  case h_10 htype => exact fits_of_decided (htype ▸ rfl) (lookup_flag ..)
  case h_11 htype => exact fits_of_decided (htype ▸ rfl) (lookup_flag ..)
  case h_12 htype => exact fits_of_decided (htype ▸ rfl) rfl
  case h_13 htype => exact fits_of_decided (htype ▸ rfl) rfl
  case h_14 htype => exact fits_of_decided (htype ▸ rfl) rfl
  case h_15 htype => exact fits_of_decided (htype ▸ rfl) rfl
  case h_16 hclass hobject hcompanion hentry hfunction hanonymous hlabel hlabeled hreturn hwhen
      hproperty hparameter hprojection hrange has =>
    have hnone : kindsByType.lookup token.type = none := by
      rw [kindsByType, List.lookup_append, h, Option.none_or]
      simp only [List.lookup_eq_none_iff, List.mem_cons, List.not_mem_nil, or_false, bne_iff_ne,
        ne_eq, forall_eq_or_imp, forall_eq]
      exact ⟨hclass, hobject, hcompanion, hentry, hfunction, hanonymous, hreturn, hwhen, hproperty,
        hparameter, hprojection, hrange, has⟩
    split
    · exact fits_of_loose hnone (by decide) rfl
    · exact hnode hnone

theorem classify_of_isError {above : List String} {token : Token} {children : Forest Token}
    (h : token.isError = true) : classify above token children = ⟨.known .error, []⟩ := by
  rw [Token.isError] at h
  rw [classify, if_pos h]

/-- The element of a node that is no error is of a kind that its type allows, and leaves it open
where it begins. -/
theorem fits_classify (above : List String) {token : Token} (children : Forest Token)
    (h : token.isError = false) : Fits token.type (classify above token children) := by
  rw [Token.isError] at h
  rw [classify, if_neg (by simp [h])]
  cases hsimple : simpleKinds.lookup token.type with
  | some kind =>
    refine fits_of_decided ?_ rfl
    rw [kindsByType, List.lookup_append, hsimple, Option.some_or]
  | none => exact fits_construct? above children hsimple

theorem lookup_start_classify (above : List String) (token : Token) (children : Forest Token) :
    (classify above token children).attributes.lookup "start" = none := by
  cases h : token.isError with
  | true => rw [classify_of_isError h]; rfl
  | false =>
    obtain ⟨kind, attributes, heq, -, hstart⟩ := fits_classify above children h
    rw [heq]
    exact hstart

/-- The errors are what the parser could not read and what it supplied. -/
theorem isOf_error_classify (above : List String) (token : Token) (children : Forest Token) :
    (classify above token children).isOf .error = token.isError := by
  cases h : token.isError with
  | true => rw [classify_of_isError h]; rfl
  | false =>
    obtain ⟨kind, attributes, heq, hkind, -⟩ := fits_classify above children h
    rw [heq, Element.isOf_known, decide_eq_false_iff_not]
    rintro rfl
    unfold IsKindOf at hkind
    cases hlookup : kindsByType.lookup token.type with
    | none => simp [hlookup, looseKinds] at hkind
    | some decided =>
      have hno : ∀ entry ∈ kindsByType, Kind.error ≠ entry.2 := by decide
      simp only [hlookup] at hkind
      exact hno _ (Association.mem_of_lookup hlookup) hkind

/-- The kinds that tell of the types of their nodes, with those types. -/
def typesByKind : List (Kind × List String) :=
  [(.file, ["source_file"]),
    (.classDeclaration, ["class_declaration"]),
    (.body, ["class_body", "enum_class_body"]),
    (.declaration, ["secondary_constructor", "anonymous_initializer", "type_alias"]),
    (.enumEntry, ["enum_entry"]),
    (.object, ["object_declaration", "companion_object"]),
    (.function, ["function_declaration"]),
    (.property, ["property_declaration"])]

/-- An element of one of these kinds is made of a node of its types that was not supplied. -/
theorem isOf_classify {kind : Kind} {types : List String} (h : (kind, types) ∈ typesByKind)
    (above : List String) (token : Token) (children : Forest Token) :
    (classify above token children).isOf kind = (types.contains token.type && !token.missing) := by
  cases herror : token.isError with
  | true =>
    have hkind : ∀ row ∈ typesByKind, Kind.error ≠ row.1 ∧ row.2.contains "ERROR" = false := by
      decide
    rw [classify_of_isError herror, Element.isOf_known, decide_eq_false (hkind _ h).1]
    rcases Bool.or_eq_true_iff.1 herror with htype | hmissing
    · rw [eq_of_beq htype, (hkind _ h).2, Bool.false_and]
    · rw [hmissing, Bool.not_true, Bool.and_false]
  | false =>
    obtain ⟨made, attributes, heq, hmade, -⟩ := fits_classify above children herror
    have hmissing : token.missing = false := (Bool.or_eq_false_iff.1 herror).2
    rw [heq, Element.isOf_known, hmissing, Bool.not_false, Bool.and_true]
    unfold IsKindOf at hmade
    cases hlookup : kindsByType.lookup token.type with
    | some decided =>
      have hdecided : ∀ entry ∈ kindsByType, ∀ row ∈ typesByKind,
          decide (entry.2 = row.1) = row.2.contains entry.1 := by decide
      simp only [hlookup] at hmade
      rw [hmade]
      exact hdecided _ (Association.mem_of_lookup hlookup) _ h
    | none =>
      have hloose : ∀ row ∈ typesByKind, row.1 ∉ looseKinds ∧
          ∀ type ∈ row.2, (kindsByType.lookup type).isSome = true := by decide
      obtain ⟨hkind, htypes⟩ := hloose _ h
      simp only [hlookup] at hmade
      have hne : made ≠ kind := fun hsame => hkind (hsame ▸ hmade)
      have hnot : token.type ∉ types := by
        intro hmem
        have hsome := htypes _ hmem
        rw [hlookup] at hsome
        cases hsome
      simp [hne, hnot]

theorem classify_class (above : List String) {token : Token} (children : Forest Token)
    (htype : token.type = "class_declaration") (hmissing : token.missing = false) :
    classify above token children = ⟨.known .classDeclaration, classAttributes children⟩ := by
  rw [classify, if_neg (by simp [htype, hmissing])]
  simp only [construct?, htype]
  rfl

theorem classify_function (above : List String) {token : Token} (children : Forest Token)
    (htype : token.type = "function_declaration") (hmissing : token.missing = false) :
    classify above token children = ⟨.known .function, functionAttributes children⟩ := by
  rw [classify, if_neg (by simp [htype, hmissing])]
  simp only [construct?, htype]
  rfl

end Syntax
end FeatureCensus
