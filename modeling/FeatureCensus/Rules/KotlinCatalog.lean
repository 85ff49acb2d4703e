import FeatureCensus.Count.Catalog

/-!
# The Kotlin catalog

The counters of a census of Kotlin sources, in the order of reports.

Main results:

- Theorem {lit}`Kotlin.nodup_keys_catalog`: no key is declared twice.
-/

namespace FeatureCensus
namespace Kotlin

/-- The declarations of all Kotlin counters. -/
def catalog : Catalog :=
  [⟨"syntax_errors", "Error count", .always⟩,
    ⟨"delegation_by_specifiers", "'by' delegations", .detailed⟩,
    ⟨"classes", "Classes", .never⟩,
    ⟨"companion_objects", "Companion objects", .never⟩,
    ⟨"primary_constructor_visibility", "Primary constructors with non-default visibility", .never⟩,
    ⟨"inner_classes", "Inner classes", .never⟩,
    ⟨"inner_classes_with_outer_type_parameters", "Inner classes with outer type parameters",
      .detailed⟩,
    ⟨"objects", "Object declarations", .never⟩,
    ⟨"top_level_objects", "Top-level object declarations", .never⟩,
    ⟨"enums", "Enum classes", .never⟩,
    ⟨"enums_with_constructor_parameters", "Enum classes with constructor parameters", .never⟩,
    ⟨"enums_with_entries_and_members_mixed", "Enum classes with entries and members mixed",
      .detailed⟩,
    ⟨"enum_entries", "Enum entries", .never⟩,
    ⟨"enum_entries_with_body", "Enum entries with body", .never⟩,
    ⟨"functions", "Functions", .never⟩,
    ⟨"inline_functions", "Inline functions", .never⟩,
    ⟨"extension_functions", "Extension functions", .never⟩,
    ⟨"extension_functions_in_classes", "Extension functions inside classes", .never⟩,
    ⟨"lambdas", "Lambdas", .never⟩,
    ⟨"lambdas_with_declared_return_type", "Lambdas with declared return type", .detailed⟩,
    ⟨"labeled_expressions", "Labeled expressions", .detailed⟩,
    ⟨"qualified_break_continue", "'break' or 'continue' with label", .detailed⟩,
    ⟨"return_with_label", "'return' with label", .detailed⟩,
    ⟨"while_loops", "'while' loops", .never⟩,
    ⟨"do_while_loops", "'do/while' loops", .never⟩,
    ⟨"when_with_expression", "'when' with expression", .never⟩,
    ⟨"when_without_expression", "'when' without expression", .never⟩,
    ⟨"when_condition_in_range", "'in' condition in 'when'", .never⟩,
    ⟨"vals", "'val' declarations", .never⟩,
    ⟨"vars", "'var' declarations", .never⟩,
    ⟨"type_parameters", "Type parameters", .never⟩,
    ⟨"type_parameters_with_variance", "Type parameters with variance", .never⟩,
    ⟨"type_arguments", "Type arguments", .never⟩,
    ⟨"type_arguments_with_variance", "Type arguments with variance", .never⟩,
    ⟨"type_arguments_with_star", "Type arguments with <*>", .never⟩,
    ⟨"range_operators", "Range operators", .never⟩,
    ⟨"as_casts", "'as' casts", .never⟩,
    ⟨"backing_fields", "Backing fields", .never⟩]

/-- No key is declared twice. -/
theorem nodup_keys_catalog : catalog.keys.Nodup := by
  decide

end Kotlin
end FeatureCensus
