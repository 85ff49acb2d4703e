import FeatureCensus.Analysis.Recording
import FeatureCensus.Rules.KotlinCatalog
import FeatureCensus.Rules.KotlinRules
import Mathlib.Data.List.Nodup

/-!
# Where features occur

For each counter of the Kotlin catalog the elements that it counts: those of one kind that
pass a test, which may look at the attributes of the element, at the elements above it and at
its members.  At an element whose numbers are integers the rules find exactly the features that
occur there.

Main results:

- Theorem {lit}`Kotlin.hasOuterTypeParameters_eq`: where all numbers are integers it is decided
  whether a class above declares type parameters.
- Theorem {lit}`Kotlin.findingsAt_rules`: the rules find the features that occur.
- Theorem {lit}`Kotlin.perm_keys_features`: each counter of the catalog has one feature.
-/

namespace FeatureCensus

open Syntax Text

/-! ## Integers in attributes -/

namespace Syntax
namespace Element

/-- Whether an attribute is absent or an integer. -/
def HasInteger (e : Element) (name : String) : Prop :=
  ∃ n, e.number name = .ok n

/-- The integer in an attribute, which is zero where there is none. -/
def integer (e : Element) (name : String) : Int :=
  (e.number name).toOption.getD 0

theorem number_eq_ok {e : Element} {name : String} (h : e.HasInteger name) :
    e.number name = .ok (e.integer name) := by
  obtain ⟨n, hn⟩ := h
  simp [integer, hn, Except.toOption]

theorem isPositive_eq_ok {e : Element} {name : String} (h : e.HasInteger name) :
    e.isPositive name = .ok (decide (0 < e.integer name)) := by
  rw [isPositive, number_eq_ok h]
  rfl

/-- Whether all numbers that rules read in an element are integers: the place where it begins
and, of a class, how many type parameters and constructor parameters it has. -/
structure HasIntegers (e : Element) : Prop where
  start : e.HasInteger "start"
  typeParameters : e.isOf .classDeclaration = true → e.HasInteger "type_parameters"
  constructorParameters :
    e.isOf .classDeclaration = true → e.HasInteger "constructor_parameters"

instance (e : Element) (name : String) : Decidable (e.HasInteger name) :=
  decidable_of_iff ((e.number name).isOk = true) <| by
    unfold HasInteger
    cases e.number name <;> simp [Except.isOk, Except.toBool]

instance (e : Element) : Decidable e.HasIntegers :=
  decidable_of_iff (e.HasInteger "start" ∧
      (e.isOf .classDeclaration = true → e.HasInteger "type_parameters") ∧
      (e.isOf .classDeclaration = true → e.HasInteger "constructor_parameters"))
    ⟨fun ⟨hstart, htypes, hconstructor⟩ => ⟨hstart, htypes, hconstructor⟩,
      fun h => ⟨h.start, h.typeParameters, h.constructorParameters⟩⟩

end Element
end Syntax

namespace Kotlin

/-- Whether an element is a class with type parameters. -/
def isGenericClass (e : Element) : Bool :=
  e.isOf .classDeclaration && decide (0 < e.integer "type_parameters")

/-- Where all numbers are integers it is decided whether a class above declares type
parameters. -/
theorem hasOuterTypeParameters_eq {above : List Element} (h : ∀ e ∈ above, e.HasIntegers) :
    hasOuterTypeParameters above = .ok (above.any isGenericClass) := by
  induction above with
  | nil => rfl
  | cons e rest ih =>
    have hrest := ih fun other hother => h other (List.mem_cons_of_mem e hother)
    rw [hasOuterTypeParameters, List.any_cons]
    by_cases hclass : e.isOf .classDeclaration = true
    · have hnumber := (h e List.mem_cons_self).typeParameters hclass
      rw [if_pos hclass, Element.isPositive_eq_ok hnumber, hrest]
      cases hpositive : decide (0 < e.integer "type_parameters") <;>
        simp [isGenericClass, hclass, hpositive]
    · rw [if_neg hclass, hrest]
      simp [isGenericClass, hclass]

/-! ## Features -/

/-- What a counter counts: the elements of a kind that pass a test. -/
structure Feature where
  key : String
  kind : Kind
  test : Site → Bool

/-- Whether a feature occurs at an element. -/
def Feature.occursAt (feature : Feature) (site : Site) : Bool :=
  site.element.isOf feature.kind && feature.test site

/-- Holds of every element. -/
def always (_ : Site) : Bool := true

/-- Whether an attribute of the element is set. -/
def sets (name : String) (site : Site) : Bool :=
  site.element.isSet name

/-- Whether an attribute of the element has one of the given values. -/
def hasAmong (name : String) (values : List String) (site : Site) : Bool :=
  values.any fun value => site.element.attribute? name == some value

/-- Whether an attribute of the element is there and not empty. -/
def isGiven (name : String) (site : Site) : Bool :=
  ((site.element.attribute? name).getD "") != ""

/-- Whether the number in an attribute of the element is positive. -/
def isPositive (name : String) (site : Site) : Bool :=
  decide (0 < site.element.integer name)

/-- Whether some element above passes a test. -/
def isBelow (test : Element → Bool) (site : Site) : Bool :=
  site.ancestors.any test

/-- Whether the element directly above passes a test. -/
def isDirectlyBelow (test : Element → Bool) (site : Site) : Bool :=
  (site.ancestors.head?.map test).getD false

/-- The keys of counters with the tests of what they count. -/
abbrev Tests := List (String × (Site → Bool))

def innerTests : Tests :=
  [("inner_classes", sets "inner"),
    ("inner_classes_with_outer_type_parameters", fun site =>
      sets "inner" site && isBelow isGenericClass site)]

def enumTests : Tests :=
  [("enums", sets "enum"),
    ("enums_with_constructor_parameters", fun site =>
      sets "enum" site && isPositive "constructor_parameters" site),
    ("enums_with_entries_and_members_mixed", fun site =>
      sets "enum" site && hasEntriesAndMembersMixed site.here)]

def classTests : Tests :=
  ("classes", always) ::
    (innerTests ++ [("primary_constructor_visibility", isGiven "constructor_visibility")] ++
      enumTests)

def enumEntryTests : Tests :=
  [("enum_entries", always), ("enum_entries_with_body", sets "body")]

def objectTests : Tests :=
  [("objects", always),
    ("top_level_objects", isDirectlyBelow (·.isOf .file)),
    ("companion_objects", sets "companion")]

def functionTests : Tests :=
  [("functions", always),
    ("inline_functions", sets "inline"),
    ("extension_functions", sets "receiver"),
    ("extension_functions_in_classes", fun site =>
      sets "receiver" site && isBelow (·.isOf .classDeclaration) site)]

def lambdaTests : Tests :=
  [("lambdas", always), ("lambdas_with_declared_return_type", sets "return_type")]

def jumpTests : Tests :=
  [("qualified_break_continue", fun site =>
      isGiven "target" site && hasAmong "keyword" ["break", "continue"] site),
    ("return_with_label", fun site =>
      isGiven "target" site && hasAmong "keyword" ["return"] site)]

def whenTests : Tests :=
  [("when_with_expression", sets "subject"),
    ("when_without_expression", fun site => !sets "subject" site)]

def propertyTests : Tests :=
  [("vars", sets "mutable"), ("vals", fun site => !sets "mutable" site)]

def typeParameterTests : Tests :=
  [("type_parameters", always),
    ("type_parameters_with_variance", hasAmong "variance" ["in", "out"])]

def typeArgumentTests : Tests :=
  [("type_arguments", always),
    ("type_arguments_with_variance", hasAmong "projection" ["in", "out"]),
    ("type_arguments_with_star", hasAmong "projection" ["*"])]

/-- The tests of all features, by the kind of the elements. -/
def tests : List (Kind × Tests) :=
  [(.error, [("syntax_errors", always)]),
    (.delegation, [("delegation_by_specifiers", always)]),
    (.classDeclaration, classTests),
    (.enumEntry, enumEntryTests),
    (.object, objectTests),
    (.function, functionTests),
    (.lambda, lambdaTests),
    (.label, [("labeled_expressions", always)]),
    (.jump, jumpTests),
    (.whileLoop, [("while_loops", always)]),
    (.doWhileLoop, [("do_while_loops", always)]),
    (.whenBranches, whenTests),
    (.whenRangeCondition, [("when_condition_in_range", always)]),
    (.property, propertyTests),
    (.typeParameter, typeParameterTests),
    (.typeArgument, typeArgumentTests),
    (.binary, [("range_operators", hasAmong "operator" [".."])]),
    (.typeCast, [("as_casts", hasAmong "operator" ["as"])]),
    (.fieldReference, [("backing_fields", always)])]

/-- The features of the catalog. -/
def features : List Feature :=
  tests.flatMap fun (kind, tests) => tests.map fun (key, test) => ⟨key, kind, test⟩

/-- Whether the feature of a counter occurs at an element. -/
def occursAt (key : String) (site : Site) : Bool :=
  features.any fun feature => feature.key == key && feature.occursAt site

/-- Each counter of the catalog has one feature. -/
theorem perm_keys_features : (features.map (·.key)).Perm catalog.keys := by
  decide

theorem nodup_keys_features : (features.map (·.key)).Nodup :=
  perm_keys_features.nodup_iff.2 nodup_keys_catalog

/-- A counter has no other feature than one with its key. -/
theorem occursAt_key {feature : Feature} (h : feature ∈ features) (site : Site) :
    occursAt feature.key site = feature.occursAt site := by
  rw [occursAt, Bool.eq_iff_iff, List.any_eq_true]
  constructor
  · rintro ⟨other, hother, hboth⟩
    obtain ⟨hkey, hoccurs⟩ := Bool.and_eq_true_iff.1 hboth
    have hsame := List.inj_on_of_nodup_map nodup_keys_features hother h (eq_of_beq hkey)
    rwa [hsame] at hoccurs
  · intro hoccurs
    exact ⟨feature, h, by simp [hoccurs]⟩

/-! ## What the rules find -/

/-- The findings for the tests that an element passes. -/
def passed (tests : Tests) (site : Site) : List Finding :=
  (tests.filter (·.2 site)).map fun entry => .count entry.1

@[simp]
theorem passed_nil (site : Site) : passed [] site = [] := rfl

@[simp]
theorem passed_cons (key : String) (test : Site → Bool) (rest : Tests) (site : Site) :
    passed ((key, test) :: rest) site =
      Finding.when (test site) [.count key] ++ passed rest site := by
  unfold passed Finding.when
  by_cases h : test site <;> simp [h]

@[simp]
theorem passed_append (first second : Tests) (site : Site) :
    passed (first ++ second) site = passed first site ++ passed second site := by
  simp [passed]

@[simp]
theorem when_true (findings : List Finding) : Finding.when true findings = findings := rfl

@[simp]
theorem when_false (findings : List Finding) : Finding.when false findings = [] := rfl

/-- What the features of a kind give at an element. -/
def found (kind : Kind) (tests : Tests) (site : Site) : List Finding :=
  Finding.when (site.element.isOf kind) (passed tests site)

theorem map_filter_features (site : Site) :
    (features.filter (·.occursAt site)).map (fun feature => Finding.count feature.key) =
      tests.flatMap fun entry => found entry.1 entry.2 site := by
  rw [features, List.filter_flatMap, List.map_flatMap]
  congr 1
  funext entry
  obtain ⟨kind, tests⟩ := entry
  by_cases h : site.element.isOf kind <;>
    simp [found, passed, h, List.filter_map, Function.comp_def, Feature.occursAt]

/-- What a rule adds to the findings at an element. -/
def contribution (rule : Rule) (site : Site) : List Finding :=
  Finding.when (rule.appliesTo site.element) (rule.findings site)

theorem findingsAt_eq_flatMap (rules : List Rule) (site : Site) :
    Analysis.findingsAt (Rule.dispatchTable rules) site =
      rules.flatMap fun rule => contribution rule site := by
  rw [Analysis.findingsAt, Rule.groupFor_dispatchTable]
  induction rules with
  | nil => rfl
  | cons rule rest ih =>
    by_cases h : rule.appliesTo site.element <;> simp [contribution, h, ih]

/-- A rule finds the features of its kind if it does so at the elements of that kind. -/
theorem contribution_ruleFor (name : String) {kind : Kind} {findings : Site → List Finding}
    {tests : Tests} {site : Site}
    (h : site.element.isOf kind = true → findings site = passed tests site) :
    contribution (ruleFor name kind findings) site = found kind tests site := by
  have happlies : (ruleFor name kind findings).appliesTo site.element =
      site.element.isOf kind := rfl
  rw [contribution, found, happlies]
  by_cases hkind : site.element.isOf kind
  · rw [hkind, when_true, when_true]
    exact h hkind
  · simp [hkind]

theorem contribution_counting (name : String) (kind : Kind) (key : String) (site : Site) :
    contribution (.counting name kind.name [key]) site = found kind [(key, always)] site := rfl

/-! ### Single rules -/

theorem classFindings_eq {site : Site} (hsite : site.element.HasIntegers)
    (habove : ∀ e ∈ site.ancestors, e.HasIntegers)
    (hclass : site.element.isOf .classDeclaration = true) :
    classFindings site = passed classTests site := by
  have hinner : Finding.when (site.element.isSet "inner") (innerFindings site) =
      passed innerTests site := by
    rw [innerFindings, hasOuterTypeParameters_eq habove]
    cases h : site.element.isSet "inner" <;> simp [innerTests, sets, h, isBelow, Finding.whenOk]
  have henum : Finding.when (site.element.isSet "enum") (enumFindings site) =
      passed enumTests site := by
    rw [enumFindings, Element.isPositive_eq_ok (hsite.constructorParameters hclass)]
    cases h : site.element.isSet "enum" <;>
      simp [enumTests, sets, h, isPositive, Finding.whenOk]
  rw [classFindings, hinner, henum]
  simp [classTests, always, isGiven, hasConstructorVisibility]

theorem enumEntryFindings_eq (site : Site) :
    enumEntryFindings site = passed enumEntryTests site := by
  simp [enumEntryFindings, enumEntryTests, always, sets]

theorem objectFindings_eq (site : Site) : objectFindings site = passed objectTests site := by
  have htop : isTopLevel site = isDirectlyBelow (·.isOf .file) site := by
    unfold isTopLevel isDirectlyBelow
    cases site.ancestors <;> rfl
  simp [objectFindings, objectTests, always, sets, htop]

theorem functionFindings_eq (site : Site) :
    functionFindings site = passed functionTests site := by
  have hclass : isInsideClass site.ancestors = isBelow (·.isOf .classDeclaration) site := rfl
  rw [functionFindings, hclass]
  cases h : site.element.isSet "receiver" <;> simp [functionTests, always, sets, h]

theorem lambdaFindings_eq (site : Site) : lambdaFindings site = passed lambdaTests site := by
  simp [lambdaFindings, lambdaTests, always, sets]

theorem jumpFindings_eq (site : Site) : jumpFindings site = passed jumpTests site := by
  have htarget : ((site.element.attribute? "target").getD "" != "") = isGiven "target" site := rfl
  simp only [jumpFindings, htarget]
  cases hgiven : isGiven "target" site with
  | false => simp [jumpTests, hgiven]
  | true =>
    cases hkeyword : site.element.attribute? "keyword" with
    | none => simp [jumpTests, hgiven, hasAmong, hkeyword]
    | some keyword =>
      cases hloop : keyword == "break" || keyword == "continue" with
      | true =>
        -- The word of a jump out of a loop is not that of a return.
        have hreturn : (keyword == "return") = false := by
          rcases Bool.or_eq_true_iff.1 hloop with h | h <;>
            rw [eq_of_beq h] <;> decide
        simp [jumpTests, hgiven, hasAmong, hkeyword, hloop, hreturn]
      | false => simp [jumpTests, hgiven, hasAmong, hkeyword, hloop]

theorem whenFindings_eq (site : Site) : whenFindings site = passed whenTests site := by
  cases h : site.element.isSet "subject" <;> simp [whenFindings, whenTests, sets, h]

theorem propertyFindings_eq (site : Site) :
    propertyFindings site = passed propertyTests site := by
  cases h : site.element.isSet "mutable" <;> simp [propertyFindings, propertyTests, sets, h]

theorem typeParameterFindings_eq (site : Site) :
    typeParameterFindings site = passed typeParameterTests site := by
  simp [typeParameterFindings, typeParameterTests, always, hasAmong, hasVariance]

theorem typeArgumentFindings_eq (site : Site) :
    typeArgumentFindings site = passed typeArgumentTests site := by
  simp [typeArgumentFindings, typeArgumentTests, always, hasAmong, hasVariance]

theorem rangeFindings_eq (site : Site) :
    rangeFindings site = passed [("range_operators", hasAmong "operator" [".."])] site := by
  simp [rangeFindings, hasAmong]

theorem castFindings_eq (site : Site) :
    castFindings site = passed [("as_casts", hasAmong "operator" ["as"])] site := by
  simp [castFindings, hasAmong]

/-- At an element whose numbers, like those of the elements above it, are integers the rules
find exactly the features that occur there. -/
theorem findingsAt_rules {site : Site} (hsite : site.element.HasIntegers)
    (habove : ∀ e ∈ site.ancestors, e.HasIntegers) :
    Analysis.findingsAt (Rule.dispatchTable rules) site =
      (features.filter (·.occursAt site)).map fun feature => .count feature.key := by
  rw [findingsAt_eq_flatMap, map_filter_features]
  simp only [rules, tests, List.flatMap_cons, List.flatMap_nil, contribution_counting,
    contribution_ruleFor _ fun hclass => classFindings_eq hsite habove hclass,
    contribution_ruleFor _ fun _ => enumEntryFindings_eq site,
    contribution_ruleFor _ fun _ => objectFindings_eq site,
    contribution_ruleFor _ fun _ => functionFindings_eq site,
    contribution_ruleFor _ fun _ => lambdaFindings_eq site,
    contribution_ruleFor _ fun _ => jumpFindings_eq site,
    contribution_ruleFor _ fun _ => whenFindings_eq site,
    contribution_ruleFor _ fun _ => propertyFindings_eq site,
    contribution_ruleFor _ fun _ => typeParameterFindings_eq site,
    contribution_ruleFor _ fun _ => typeArgumentFindings_eq site,
    contribution_ruleFor _ fun _ => rangeFindings_eq site,
    contribution_ruleFor _ fun _ => castFindings_eq site]

end Kotlin
end FeatureCensus
