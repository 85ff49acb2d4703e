import FeatureCensus.Syntax.Classify
import FeatureCensus.Syntax.Normalize

/-!
# What classification looks at

The element of a node follows from its token, the types above it and what its children tell.
Comments among and below the children tell nothing, and nothing is asked about what hangs below
the nodes that hold declarations.  So children that are the same but for these give the same
element.

Main results:

- Theorem {lit}`Syntax.Resembles.map_find?`: what is found among the children is alike.
- Theorem {lit}`Syntax.Resembles.variance_eq`: so is the variance that they tell.
- Theorem {lit}`Syntax.Resembles.classify_eq`: children that resemble others give the same element.
- Theorem {lit}`Syntax.classify_of_container`: a node that holds declarations has the same element
  over any children.
-/

namespace FeatureCensus
namespace Syntax

/-! ## Comments and containers -/

/-- The types of the nodes that are comments. -/
def commentTypes : List String := ["line_comment", "multiline_comment"]

/-- Whether a token is that of a comment.  A token that the parser supplies has no text, so a
comment is none. -/
structure Token.IsComment (t : Token) : Prop where
  type : t.type ∈ commentTypes
  named : t.named = true
  field : t.field = none
  text : t.shown.toList.head? = some '/'
  supplied : t.missing = true → t.text = []

namespace Token.IsComment

variable {t : Token}

/-- Comments stand in the source. -/
theorem missing (h : t.IsComment) : t.missing = false := by
  rw [Bool.eq_false_iff]
  intro hmissing
  have hempty : Text.decodeLenient [] = "" := by simp [Text.decodeLenient, Text.pieces]
  have htext := h.text
  rw [Token.shown, h.supplied hmissing, hempty] at htext
  cases htext

theorem kept (h : t.IsComment) : t.kept = true := by
  rw [Token.kept, h.named, Bool.true_or]

/-- Of types without those of comments a comment has none. -/
theorem not_contains (h : t.IsComment) (types : List String)
    (htypes : ∀ type ∈ types, type ∉ commentTypes) : types.contains t.type = false := by
  rw [Bool.eq_false_iff]
  intro hmem
  exact htypes _ (List.contains_iff_mem.1 hmem) h.type

/-- No word that begins differently is a comment. -/
theorem shown_ne (h : t.IsComment) {word : String} (hword : word.toList.head? ≠ some '/') :
    t.shown ≠ word := by
  rintro rfl
  exact hword h.text

end Token.IsComment

/-- The types of the nodes that hold declarations: files, bodies and wrappers. -/
def containerTypes : List String :=
  ["source_file", "class_body", "enum_class_body"] ++ wrapperTypes

/-- That children are the same as others, but for comments put in and for what hangs below the
nodes that hold declarations. -/
inductive Resembles : Forest Token → Forest Token → Prop where
  | nil : Resembles [] []
  | comment {token : Token} {first second : Forest Token} (hcomment : token.IsComment)
      (hrest : Resembles first second) : Resembles first (.node token [] :: second)
  | container {token : Token} {kids others first second : Forest Token}
      (hcontainer : token.type ∈ containerTypes) (hrest : Resembles first second) :
      Resembles (.node token kids :: first) (.node token others :: second)
  | node {token : Token} {kids others first second : Forest Token}
      (hkids : Resembles kids others) (hrest : Resembles first second) :
      Resembles (.node token kids :: first) (.node token others :: second)

namespace Resembles

variable {first second : Forest Token}

theorem refl : ∀ children : Forest Token, Resembles children children
  | [] => .nil
  | .node _ kids :: rest => .node (refl kids) (refl rest)

theorem append {third fourth : Forest Token} (h : Resembles first second)
    (hlater : Resembles third fourth) : Resembles (first ++ third) (second ++ fourth) := by
  induction h with
  | nil => exact hlater
  | comment hcomment _ ih => exact .comment hcomment ih
  | container hcontainer _ ih => exact .container hcontainer ih
  | node hkids _ _ ih => exact .node hkids ih

/-! ## Tests that comments fail -/

variable (test : Token → Bool)

theorem any_eq (h : Resembles first second) (htest : ∀ t, t.IsComment → test t = false) :
    first.any (test ·.value) = second.any (test ·.value) := by
  induction h with
  | nil => rfl
  | comment hcomment _ ih => rw [List.any_cons, Tree.value_node, htest _ hcomment, ih]; rfl
  | container _ _ ih => rw [List.any_cons, List.any_cons, ih]; rfl
  | node _ _ _ ih => rw [List.any_cons, List.any_cons, ih]; rfl

theorem countP_eq (h : Resembles first second) (htest : ∀ t, t.IsComment → test t = false) :
    first.countP (test ·.value) = second.countP (test ·.value) := by
  induction h with
  | nil => rfl
  | comment hcomment _ ih =>
    rw [List.countP_cons_of_neg (by simp [htest _ hcomment]), ih]
  | container _ _ ih => rw [List.countP_cons, List.countP_cons, ih]; rfl
  | node _ _ _ ih => rw [List.countP_cons, List.countP_cons, ih]; rfl

theorem filter (h : Resembles first second) (test : Token → Bool) :
    Resembles (first.filter (test ·.value)) (second.filter (test ·.value)) := by
  induction h with
  | nil => exact .nil
  | @comment token _ _ hcomment _ ih =>
    rw [List.filter_cons]
    split
    · exact .comment hcomment ih
    · exact ih
  | @container token _ _ _ _ hcontainer _ ih =>
    rw [List.filter_cons, List.filter_cons, Tree.value_node, Tree.value_node]
    split
    · exact .container hcontainer ih
    · exact ih
  | @node token _ _ _ _ hkids _ _ ih =>
    rw [List.filter_cons, List.filter_cons, Tree.value_node, Tree.value_node]
    split
    · exact .node hkids ih
    · exact ih

theorem namedChildren (h : Resembles first second) :
    Resembles (Syntax.namedChildren first) (Syntax.namedChildren second) :=
  h.filter (·.named)

/-- What is found by a test that comments fail is alike, so whatever does not look at more gives
the same answer for both. -/
theorem map_find? {β : Type} {f : ParseTree → β} (h : Resembles first second)
    (htest : ∀ t, t.IsComment → test t = false)
    (hf : ∀ t kids others, test t = true → t.type ∈ containerTypes ∨ Resembles kids others →
      f (.node t kids) = f (.node t others)) :
    (first.find? (test ·.value)).map f = (second.find? (test ·.value)).map f := by
  induction h with
  | nil => rfl
  | comment hcomment _ ih => rw [List.find?_cons_of_neg (by simp [htest _ hcomment]), ih]
  | @container token _ _ _ _ hcontainer _ ih =>
    rw [List.find?_cons, List.find?_cons, Tree.value_node, Tree.value_node]
    cases hfound : test token with
    | true => exact congrArg some (hf _ _ _ hfound (.inl hcontainer))
    | false => exact ih
  | @node token _ _ _ _ hkids _ _ ih =>
    rw [List.find?_cons, List.find?_cons, Tree.value_node, Tree.value_node]
    cases hfound : test token with
    | true => exact congrArg some (hf _ _ _ hfound (.inr hkids))
    | false => exact ih

/-- The tokens that are found are the same. -/
theorem map_value_find? (h : Resembles first second)
    (htest : ∀ t, t.IsComment → test t = false) :
    (first.find? (test ·.value)).map (·.value) = (second.find? (test ·.value)).map (·.value) :=
  h.map_find? test htest fun _ _ _ _ _ => rfl

/-! ## Children by type -/

theorem map_value_childOfType? (h : Resembles first second) (types : List String)
    (htypes : ∀ type ∈ types, type ∉ commentTypes) :
    (childOfType? types first).map (·.value) = (childOfType? types second).map (·.value) :=
  h.map_value_find? _ fun _ hcomment => hcomment.not_contains types htypes

/-- Of a child that holds no declarations also what it has below it is alike. -/
theorem map_childOfType? {β : Type} {f : ParseTree → β} (h : Resembles first second)
    (types : List String) (htypes : ∀ type ∈ types, type ∉ commentTypes ∧ type ∉ containerTypes)
    (hf : ∀ t kids others, Resembles kids others → f (.node t kids) = f (.node t others)) :
    (childOfType? types first).map f = (childOfType? types second).map f := by
  refine h.map_find? _
    (fun _ hcomment => hcomment.not_contains types fun type hmem => (htypes type hmem).1)
    fun t kids others hfound hkids => ?_
  rcases hkids with hcontainer | hkids
  · exact absurd hcontainer (htypes _ (List.contains_iff_mem.1 hfound)).2
  · exact hf t kids others hkids

theorem hasChildOfType_eq (h : Resembles first second) (type : String)
    (htype : type ∉ commentTypes) :
    hasChildOfType type first = hasChildOfType type second := by
  have hvalue := h.map_value_childOfType? [type] (by simpa using htype)
  have hsome := congrArg Option.isSome hvalue
  rwa [Option.isSome_map, Option.isSome_map] at hsome

theorem operatorAmong_eq (h : Resembles first second) (types : List String)
    (htypes : ∀ type ∈ types, type ∉ commentTypes) :
    operatorAmong types first = operatorAmong types second := by
  have hvalue := congrArg (Option.map (·.type)) (h.map_value_childOfType? types htypes)
  rw [Option.map_map, Option.map_map] at hvalue
  exact congrArg (·.getD "") hvalue

theorem isMutable_eq (h : Resembles first second) :
    isMutable first = isMutable second := by
  have hvalue := congrArg (Option.map fun binding => binding.shown == "var")
    (h.map_value_childOfType? ["binding_pattern_kind", "val", "var"] (by decide))
  rw [Option.map_map, Option.map_map] at hvalue
  exact congrArg (·.getD false) hvalue

/-! ## Modifiers -/

/-- The first modifier that passes a test is the same, if comments fail the test. -/
theorem find?_modifiers (h : Resembles first second) (word : String → Bool)
    (hword : ∀ t : Token, t.IsComment → word t.shown = false) :
    (modifiers first).find? word = (modifiers second).find? word := by
  let find (list : ParseTree) : Option String :=
    ((Syntax.namedChildren list.children).map (·.value.shown)).find? word
  have hmodifiers : ∀ children : Forest Token, (modifiers children).find? word =
      ((childOfType? ["modifiers"] children).map find).getD none := by
    intro children
    unfold modifiers
    cases childOfType? ["modifiers"] children <;> rfl
  have hfind : ∀ t kids others, Resembles kids others →
      find (.node t kids) = find (.node t others) := by
    intro t kids others hkids
    have hvalue := congrArg (Option.map (·.shown))
      (hkids.namedChildren.map_value_find? (fun t => word t.shown) hword)
    simp only [find, Tree.children_node, List.find?_map, Function.comp_def]
    rwa [Option.map_map, Option.map_map] at hvalue
  rw [hmodifiers, hmodifiers, h.map_childOfType? _ (by decide) hfind]

theorem contains_modifiers (h : Resembles first second) {word : String}
    (hword : word.toList.head? ≠ some '/') :
    (modifiers first).contains word = (modifiers second).contains word := by
  have hfind := h.find?_modifiers ((word == ·)) fun t hcomment => by
    simpa using (hcomment.shown_ne hword).symm
  rw [List.contains_eq_any_beq, List.contains_eq_any_beq, ← List.isSome_find?,
    ← List.isSome_find?, hfind]

/-! ## Classes -/

theorem typeParameterCount_eq {t : Token} (h : Resembles first second) :
    typeParameterCount (.node t first) = typeParameterCount (.node t second) :=
  h.namedChildren.countP_eq ((·.type == "type_parameter")) fun _ hcomment => by
    have hnot := hcomment.not_contains ["type_parameter"] (by decide)
    simpa using hnot

theorem classParameterCount_eq (h : Resembles first second) :
    classParameterCount first = classParameterCount second :=
  h.namedChildren.countP_eq ((·.type == "class_parameter")) fun _ hcomment => by
    have hnot := hcomment.not_contains ["class_parameter"] (by decide)
    simpa using hnot

/-- The parameters in lists of parameters are as many. -/
theorem foldl_classParameterCount (h : Resembles first second) (n : Nat) :
    (first.filter (·.value.type == "class_parameters")).foldl
        (fun count list => count + classParameterCount list.children) n =
      (second.filter (·.value.type == "class_parameters")).foldl
        (fun count list => count + classParameterCount list.children) n := by
  induction h generalizing n with
  | nil => rfl
  | @comment token _ _ hcomment _ ih =>
    have hnot := hcomment.not_contains ["class_parameters"] (by decide)
    rw [List.filter_cons_of_neg (by simpa using hnot), ih]
  | @container token _ _ _ _ hcontainer _ ih =>
    have hnot : token.type ≠ "class_parameters" := by
      rintro htype
      rw [htype] at hcontainer
      revert hcontainer
      decide
    rw [List.filter_cons_of_neg (by simpa using hnot),
      List.filter_cons_of_neg (by simpa using hnot), ih]
  | @node token kids others _ _ hkids _ _ ih =>
    rw [List.filter_cons, List.filter_cons, Tree.value_node, Tree.value_node]
    split
    · rw [List.foldl_cons, List.foldl_cons, ih, Tree.children_node, Tree.children_node,
        hkids.classParameterCount_eq]
    · exact ih n

theorem constructorAttributes_eq {t : Token} (h : Resembles first second) :
    constructorAttributes (.node t first) =
      constructorAttributes (.node t second) := by
  have hvisibility := h.find?_modifiers visibilities.contains fun t hcomment => by
    rw [Bool.eq_false_iff]
    intro hmem
    have hfirst : ∀ word ∈ visibilities, word.toList.head? ≠ some '/' := by decide
    exact hcomment.shown_ne (hfirst _ (List.contains_iff_mem.1 hmem)) rfl
  have hcount : constructorParameterCount (.node t first) =
      constructorParameterCount (.node t second) := by
    rw [constructorParameterCount, constructorParameterCount, Tree.children_node,
      Tree.children_node, h.classParameterCount_eq, h.namedChildren.foldl_classParameterCount]
  rw [constructorAttributes, constructorAttributes, Tree.children_node,
    Tree.children_node, hvisibility, hcount]

theorem classAttributes_eq (h : Resembles first second) :
    classAttributes first = classAttributes second := by
  have htypes := h.map_childOfType? ["type_parameters"]
    (f := fun list => toString (typeParameterCount list)) (by decide)
    fun t kids others hkids => congrArg toString hkids.typeParameterCount_eq
  have hconstructor := h.map_childOfType? ["primary_constructor"]
    (f := constructorAttributes) (by decide)
    fun t kids others hkids => hkids.constructorAttributes_eq
  rw [classAttributes, classAttributes, h.contains_modifiers (by decide),
    h.contains_modifiers (by decide), h.hasChildOfType_eq _ (by decide),
    h.hasChildOfType_eq _ (by decide), htypes, hconstructor]

/-! ## Functions -/

theorem map_value_functionName? (h : Resembles first second) :
    (functionName? first).map (·.value) = (functionName? second).map (·.value) := by
  have hfield := h.map_value_find? (fun t => t.field == some "name") fun t hcomment => by
    rw [hcomment.field]
    rfl
  have hidentifier := h.map_value_childOfType? identifierTypes (by decide)
  have hname : ∀ children : Forest Token, (functionName? children).map (·.value) =
      ((childInField? "name" children).map (·.value)).or
        ((childOfType? identifierTypes children).map (·.value)) := by
    intro children
    unfold functionName?
    cases childInField? "name" children <;> rfl
  rw [hname, hname, hidentifier]
  unfold childInField?
  rw [hfield]

theorem hasReceiver_eq (h : Resembles first second) :
    hasReceiver first = hasReceiver second := by
  have hname := h.map_value_functionName?
  unfold hasReceiver
  cases hfirst : functionName? first with
  | none =>
    rw [hfirst, Option.map_none, eq_comm, Option.map_eq_none_iff] at hname
    rw [hname]
  | some name =>
    rw [hfirst, Option.map_some, eq_comm, Option.map_eq_some_iff] at hname
    obtain ⟨other, hother, hsame⟩ := hname
    simp only [hother, hsame]
    refine h.any_eq (fun t => typeNodeTypes.contains t.type && t.start < name.value.start)
      fun t hcomment => ?_
    rw [hcomment.not_contains _ (by decide), Bool.false_and]

theorem functionAttributes_eq (h : Resembles first second) :
    functionAttributes first = functionAttributes second := by
  rw [functionAttributes, functionAttributes, h.contains_modifiers (by decide),
    h.hasReceiver_eq]

/-! ## Jumps -/

theorem jumpTarget_eq (h : Resembles first second) (marker : Token) :
    jumpTarget marker first = jumpTarget marker second := by
  have hvalue := congrArg (Option.map (·.shown)) (h.namedChildren.map_value_find?
    (fun t => marker.stop ≤ t.start && identifierTypes.contains t.type)
    fun t hcomment => by rw [hcomment.not_contains _ (by decide), Bool.and_false])
  rw [Option.map_map, Option.map_map] at hvalue
  exact congrArg (·.getD "") hvalue

theorem labeledJump?_eq (h : Resembles first second) :
    labeledJump? first = labeledJump? second := by
  have hjump : ∀ children : Forest Token, labeledJump? children =
      ((childOfType? ["label"] children).map (·.value)).bind fun marker =>
        (jumpLabels.lookup marker.shown).map fun keyword =>
          jumpAttributes keyword (jumpTarget marker children) := by
    intro children
    unfold labeledJump?
    cases childOfType? ["label"] children with
    | none => rfl
    | some marker => cases hlabel : jumpLabels.lookup marker.value.shown <;> simp [hlabel]
  rw [hjump, hjump, h.map_value_childOfType? _ (by decide)]
  simp only [h.jumpTarget_eq]

theorem returnTarget_eq (h : Resembles first second) :
    returnTarget first = returnTarget second := by
  have htarget : ∀ children : Forest Token, returnTarget children =
      (((childOfType? ["return@"] children).map (·.value)).map
        (jumpTarget · children)).getD "" := by
    intro children
    unfold returnTarget
    cases childOfType? ["return@"] children <;> rfl
  rw [htarget, htarget, h.map_value_childOfType? _ (by decide)]
  simp only [h.jumpTarget_eq]

/-! ## Variance -/

theorem variance_cons (child : ParseTree) (rest : Forest Token) :
    variance (child :: rest) = (toldVariance? child).getD (variance rest) := by
  rw [variance]
  cases toldVariance? child <;> rfl

/-- A node that holds declarations tells no variance. -/
theorem toldVariance?_of_container {token : Token} (h : token.type ∈ containerTypes)
    (kids : Forest Token) : toldVariance? (.node token kids) = none := by
  have hno : ∀ type ∈ containerTypes, (type == "variance_modifier") = false ∧
      varianceListTypes.contains type = false := by decide
  rw [toldVariance?, (hno _ h).1, (hno _ h).2]
  rfl

theorem toldVariance?_of_comment {token : Token} (h : token.IsComment) (kids : Forest Token) :
    toldVariance? (.node token kids) = none := by
  have hmodifier := h.not_contains ["variance_modifier"] (by decide)
  have hlist := h.not_contains varianceListTypes (by decide)
  rw [toldVariance?, hlist, if_neg (by simpa using hmodifier)]
  rfl

/-- The variance that children tell is the same. -/
theorem variance_eq (h : Resembles first second) :
    variance first = variance second := by
  induction h with
  | nil => rfl
  | comment hcomment _ ih =>
    rw [ih, variance_cons, toldVariance?_of_comment hcomment, Option.getD_none]
  | container hcontainer _ ih =>
    rw [variance_cons, variance_cons, toldVariance?_of_container hcontainer,
      toldVariance?_of_container hcontainer, ih]
  | node _ _ ihkids ih =>
    rw [variance_cons, variance_cons, toldVariance?, toldVariance?, ihkids, ih]

/-! ## Elements -/

/-- Children that resemble others give the same element. -/
theorem classify_eq (h : Resembles first second) (above : List String) (token : Token) :
    classify above token first = classify above token second := by
  have hconstruct : construct? above token first = construct? above token second := by
    simp only [construct?, h.classAttributes_eq, h.functionAttributes_eq, h.labeledJump?_eq,
      h.returnTarget_eq, h.isMutable_eq, h.variance_eq,
      h.hasChildOfType_eq "class_body" (by decide),
      h.hasChildOfType_eq ":" (by decide),
      h.hasChildOfType_eq "when_subject" (by decide),
      h.hasChildOfType_eq "*" (by decide),
      h.operatorAmong_eq ["..", "..<"] (by decide),
      h.operatorAmong_eq ["as", "as?"] (by decide)]
  rw [classify, classify, hconstruct]

theorem placedElement_eq (h : Resembles first second) (above : List String) (token : Token) :
    placedElement above token first = placedElement above token second := by
  rw [placedElement, placedElement, h.classify_eq]

end Resembles

/-- A node that holds declarations has the same element over any children. -/
theorem classify_of_container {token : Token} (h : token.type ∈ containerTypes)
    (above : List String) (first second : Forest Token) :
    classify above token first = classify above token second := by
  have hconstruct : simpleKinds.lookup token.type = none →
      construct? above token first = construct? above token second := by
    intro hnone
    have hwrapper : token.type = "declaration" ∨ token.type = "class_member_declaration" := by
      simp only [containerTypes, wrapperTypes, List.cons_append, List.nil_append, List.mem_cons,
        List.not_mem_nil, or_false] at h
      rcases h with htype | htype | htype | htype | htype
      · rw [htype] at hnone; cases hnone
      · rw [htype] at hnone; cases hnone
      · rw [htype] at hnone; cases hnone
      · exact .inl htype
      · exact .inr htype
    rcases hwrapper with htype | htype
    · simp only [construct?, htype]
      rfl
    · simp only [construct?, htype]
      rfl
  rw [classify, classify]
  cases hsimple : simpleKinds.lookup token.type with
  | some kind => rfl
  | none => rw [hconstruct hsimple]

end Syntax
end FeatureCensus
