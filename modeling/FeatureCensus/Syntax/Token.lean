import FeatureCensus.Text.Utf8
import FeatureCensus.Tree

/-!
# Parser trees

The concrete syntax tree that a parser makes of a source: nodes with the type that
the grammar gives them, their place in the source and their own bytes.

Main results:

- Theorem {lit}`Syntax.childOfType?_eq_some`: a child found by its type has it.
-/

namespace FeatureCensus
namespace Syntax

open Text

/-! ## Nodes -/

/-- What a parser tells of a node besides its children.  The text of a node is empty
where the parser does not give it. -/
structure Token where
  type : String
  start : Nat
  stop : Nat
  named : Bool
  missing : Bool
  field : Option String
  text : Bytes
  deriving DecidableEq, Repr, Inhabited

/-- A parser tree. -/
abbrev ParseTree := Tree Token

namespace Token

/-- The text of a node, malformed bytes being replaced. -/
def shown (t : Token) : String :=
  decodeLenient t.text

/-- Named nodes and tokens that the parser had to supply are kept; all others are
punctuation. -/
def kept (t : Token) : Bool :=
  t.named || t.missing

end Token

/-- The tree of a source of which a parser tells nothing but its extent. -/
def bareTree (source : Bytes) : ParseTree :=
  .node ⟨"source_file", 0, source.length, true, false, none, source⟩ []

/-! ## Children -/

/-- The first child of one of the given types. -/
def childOfType? (types : List String) (children : Forest Token) : Option ParseTree :=
  children.find? fun child => types.contains child.value.type

/-- Whether there is a child of the given type. -/
def hasChildOfType (type : String) (children : Forest Token) : Bool :=
  (childOfType? [type] children).isSome

/-- The first child in a field. -/
def childInField? (field : String) (children : Forest Token) : Option ParseTree :=
  children.find? fun child => child.value.field == some field

/-- The named children. -/
def namedChildren (children : Forest Token) : Forest Token :=
  children.filter (·.value.named)

/-- A child found by its type has it. -/
theorem childOfType?_eq_some {types : List String} {children : Forest Token} {child : ParseTree}
    (h : childOfType? types children = some child) :
    child ∈ children ∧ child.value.type ∈ types := by
  have hmem := List.mem_of_find?_eq_some h
  have htype := List.find?_some h
  exact ⟨hmem, by simpa using htype⟩

/-- The types of the nodes that are identifiers. -/
def identifierTypes : List String := ["identifier", "simple_identifier"]

/-- The types of the nodes that are types. -/
def typeNodeTypes : List String :=
  ["user_type", "nullable_type", "parenthesized_type", "function_type", "type_reference",
    "non_nullable_type"]

/-- The texts of the modifiers of a declaration: of the named children of its first
list of modifiers. -/
def modifiers (children : Forest Token) : List String :=
  match childOfType? ["modifiers"] children with
  | none => []
  | some list => (namedChildren list.children).map (·.value.shown)

/-- The types of the lists that the variance of a type parameter or type projection
may stand in. -/
def varianceListTypes : List String :=
  ["type_parameter_modifiers", "type_projection_modifiers"]

mutual

/-- The variance that a child tells: the text of a variance modifier, or a variance in a list
of modifiers that is not empty. -/
def toldVariance? : ParseTree → Option String
  | .node token children =>
    if token.type == "variance_modifier" then some token.shown
    else if varianceListTypes.contains token.type then
      let inner := variance children
      if inner.isEmpty then none else some inner
    else none

/-- The variance among the children of a type parameter or type projection: the first one that
a child tells, or the empty text where there is none. -/
def variance : Forest Token → String
  | [] => ""
  | child :: rest =>
    match toldVariance? child with
    | some told => told
    | none => variance rest

end

end Syntax
end FeatureCensus
