import FeatureCensus.Rules.Members

/-!
# The Kotlin rules

The rules that find the features of the Kotlin catalog.

Main results:

- Theorem {lit}`Kotlin.nodup_names_rules`: the rules have different names.
-/

namespace FeatureCensus
namespace Kotlin

open Syntax Text

/-! ## Declarations -/

/-- What a class adds to if it is inner. -/
def innerFindings (site : Site) : List Finding :=
  .count "inner_classes" ::
    Finding.whenOk (hasOuterTypeParameters site.ancestors)
      [.count "inner_classes_with_outer_type_parameters"]

/-- What a class adds to if it is an enum class. -/
def enumFindings (site : Site) : List Finding :=
  .count "enums" ::
    (Finding.whenOk (site.element.isPositive "constructor_parameters")
        [.count "enums_with_constructor_parameters"] ++
      Finding.when (hasEntriesAndMembersMixed site.here)
        [.count "enums_with_entries_and_members_mixed"])

/-- Whether the primary constructor has a visibility other than the default one. -/
def hasConstructorVisibility (e : Element) : Bool :=
  ((e.attribute? "constructor_visibility").getD "") != ""

/-- Classes, interfaces and enum classes. -/
def classFindings (site : Site) : List Finding :=
  .count "classes" ::
    (Finding.when (site.element.isSet "inner") (innerFindings site) ++
      Finding.when (hasConstructorVisibility site.element)
        [.count "primary_constructor_visibility"] ++
      Finding.when (site.element.isSet "enum") (enumFindings site))

def enumEntryFindings (site : Site) : List Finding :=
  .count "enum_entries" ::
    Finding.when (site.element.isSet "body") [.count "enum_entries_with_body"]

/-- Whether the element stands directly in a file. -/
def isTopLevel (site : Site) : Bool :=
  match site.ancestors with
  | [] => false
  | parent :: _ => parent.isOf .file

/-- Object declarations and companion objects. -/
def objectFindings (site : Site) : List Finding :=
  .count "objects" ::
    (Finding.when (isTopLevel site) [.count "top_level_objects"] ++
      Finding.when (site.element.isSet "companion") [.count "companion_objects"])

def functionFindings (site : Site) : List Finding :=
  .count "functions" ::
    (Finding.when (site.element.isSet "inline") [.count "inline_functions"] ++
      Finding.when (site.element.isSet "receiver")
        (.count "extension_functions" ::
          Finding.when (isInsideClass site.ancestors) [.count "extension_functions_in_classes"]))

def propertyFindings (site : Site) : List Finding :=
  [.count (if site.element.isSet "mutable" then "vars" else "vals")]

/-! ## Expressions -/

def lambdaFindings (site : Site) : List Finding :=
  .count "lambdas" ::
    Finding.when (site.element.isSet "return_type") [.count "lambdas_with_declared_return_type"]

/-- Jumps count only with a target. -/
def jumpFindings (site : Site) : List Finding :=
  let keyword := (site.element.attribute? "keyword").getD ""
  Finding.when ((site.element.attribute? "target").getD "" != "")
    (if keyword == "break" || keyword == "continue" then [.count "qualified_break_continue"]
    else Finding.when (keyword == "return") [.count "return_with_label"])

def whenFindings (site : Site) : List Finding :=
  [.count (if site.element.isSet "subject" then "when_with_expression"
    else "when_without_expression")]

/-- Half-open ranges do not count. -/
def rangeFindings (site : Site) : List Finding :=
  Finding.when (site.element.attribute? "operator" == some "..") [.count "range_operators"]

/-- Safe casts do not count. -/
def castFindings (site : Site) : List Finding :=
  Finding.when (site.element.attribute? "operator" == some "as") [.count "as_casts"]

/-! ## Types -/

/-- Whether an attribute holds a variance. -/
def hasVariance (value? : Option String) : Bool :=
  value? == some "in" || value? == some "out"

def typeParameterFindings (site : Site) : List Finding :=
  .count "type_parameters" ::
    Finding.when (hasVariance (site.element.attribute? "variance"))
      [.count "type_parameters_with_variance"]

def typeArgumentFindings (site : Site) : List Finding :=
  .count "type_arguments" ::
    (Finding.when (hasVariance (site.element.attribute? "projection"))
        [.count "type_arguments_with_variance"] ++
      Finding.when (site.element.attribute? "projection" == some "*")
        [.count "type_arguments_with_star"])

/-! ## All rules -/

/-- A rule for the elements of a kind. -/
def ruleFor (name : String) (kind : Kind) (findings : Site → List Finding) : Rule :=
  ⟨name, kind.name, findings⟩

/-- The Kotlin rules in the order in which they are applied. -/
def rules : List Rule :=
  [.counting "count_syntax_error" (Kind.name .error) ["syntax_errors"],
    .counting "count_delegation" (Kind.name .delegation) ["delegation_by_specifiers"],
    ruleFor "count_class" .classDeclaration classFindings,
    ruleFor "count_enum_entry" .enumEntry enumEntryFindings,
    ruleFor "count_object" .object objectFindings,
    ruleFor "count_function" .function functionFindings,
    ruleFor "count_lambda" .lambda lambdaFindings,
    .counting "count_labeled_expression" (Kind.name .label) ["labeled_expressions"],
    ruleFor "count_labeled_jump" .jump jumpFindings,
    .counting "count_while" (Kind.name .whileLoop) ["while_loops"],
    .counting "count_do_while" (Kind.name .doWhileLoop) ["do_while_loops"],
    ruleFor "count_when" .whenBranches whenFindings,
    .counting "count_when_condition_in_range" (Kind.name .whenRangeCondition)
      ["when_condition_in_range"],
    ruleFor "count_property" .property propertyFindings,
    ruleFor "count_type_parameter" .typeParameter typeParameterFindings,
    ruleFor "count_type_argument" .typeArgument typeArgumentFindings,
    ruleFor "count_range_operator" .binary rangeFindings,
    ruleFor "count_as_cast" .typeCast castFindings,
    .counting "count_backing_field" (Kind.name .fieldReference) ["backing_fields"]]

/-- The rules have different names. -/
theorem nodup_names_rules : (rules.map (·.name)).Nodup := by
  decide

/-- The rule of a name. -/
def rule? (name : String) : Option Rule :=
  rules.find? fun rule => rule.name == name

end Kotlin
end FeatureCensus
