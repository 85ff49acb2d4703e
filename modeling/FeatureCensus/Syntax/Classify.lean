import FeatureCensus.Syntax.Element
import FeatureCensus.Syntax.Token

/-!
# The element of a parser node

Each node of a Kotlin parser tree becomes one element: its kind follows from the
type of the node, its attributes from its children and, for the word {lit}`field`,
from the types above it.

Main results:

- Theorem {lit}`Syntax.classify_of_missing`: a supplied token is an error.
-/

namespace FeatureCensus
namespace Syntax

/-! ## Kinds that follow from the type alone -/

/-- The kinds of the nodes whose type alone decides. -/
def simpleKinds : List (String × Kind) :=
  [("source_file", .file),
    ("explicit_delegation", .delegation),
    ("class_body", .body),
    ("enum_class_body", .body),
    ("secondary_constructor", .declaration),
    ("anonymous_initializer", .declaration),
    ("type_alias", .declaration),
    ("lambda_literal", .lambda),
    ("while_statement", .whileLoop),
    ("do_while_statement", .doWhileLoop),
    ("range_test", .whenRangeCondition)]

/-! ## Attributes -/

/-- An attribute that is set or absent. -/
def flag (name : String) (set : Bool) : List (String × String) :=
  if set then [(name, Element.setValue)] else []

/-- An attribute with a value that may be absent. -/
def optional (name : String) (value? : Option String) : List (String × String) :=
  (value?.map fun value => (name, value)).toList

/-- The number of type parameters that a list declares. -/
def typeParameterCount (list : ParseTree) : Nat :=
  (namedChildren list.children).countP (·.value.type == "type_parameter")

/-- The visibilities other than the default one. -/
def visibilities : List String := ["private", "protected", "internal"]

/-- The number of class parameters among the named children. -/
def classParameterCount (children : Forest Token) : Nat :=
  (namedChildren children).countP (·.value.type == "class_parameter")

/-- The number of parameters of a primary constructor: its own ones and those in its
parameter lists. -/
def constructorParameterCount (constructor : ParseTree) : Nat :=
  classParameterCount constructor.children +
    ((namedChildren constructor.children).filter (·.value.type == "class_parameters")).foldl
      (fun count list => count + classParameterCount list.children) 0

/-- The attributes that a class has for its primary constructor. -/
def constructorAttributes (constructor : ParseTree) : List (String × String) :=
  optional "constructor_visibility"
      ((modifiers constructor.children).find? visibilities.contains) ++
    [("constructor_parameters", toString (constructorParameterCount constructor))]

/-- The attributes of a class with the given children. -/
def classAttributes (children : Forest Token) : List (String × String) :=
  flag "enum" ((modifiers children).contains "enum" ||
      hasChildOfType "enum_class_body" children) ++
    flag "inner" ((modifiers children).contains "inner") ++
    flag "interface" (hasChildOfType "interface" children) ++
    optional "type_parameters"
      ((childOfType? ["type_parameters"] children).map fun list =>
        toString (typeParameterCount list)) ++
    ((childOfType? ["primary_constructor"] children).map constructorAttributes).getD []

/-- The name of a function: the child in the name field, or else the first identifier. -/
def functionName? (children : Forest Token) : Option ParseTree :=
  (childInField? "name" children).orElse fun _ => childOfType? identifierTypes children

/-- Whether a function has a receiver: a type that begins before its name. -/
def hasReceiver (children : Forest Token) : Bool :=
  match functionName? children with
  | none => false
  | some name => children.any fun child =>
      typeNodeTypes.contains child.value.type && child.value.start < name.value.start

/-- The attributes of a function with the given children. -/
def functionAttributes (children : Forest Token) : List (String × String) :=
  flag "inline" ((modifiers children).contains "inline") ++
    flag "receiver" (hasReceiver children)

/-- The name that a jump goes to: the first named identifier at or after the end of
its marker, or the empty text. -/
def jumpTarget (marker : Token) (children : Forest Token) : String :=
  (((namedChildren children).find? fun child =>
    marker.stop ≤ child.value.start && identifierTypes.contains child.value.type).map
      (·.value.shown)).getD ""

/-- The labels that are the keywords of jumps, with the keywords. -/
def jumpLabels : List (String × String) :=
  [("break@", "break"), ("continue@", "continue")]

/-- Whether a label text is that of a label and not of a jump. -/
def isLabelText (text : String) : Bool :=
  text.toList.getLast? == some '@' && (jumpLabels.lookup text).isNone

/-- The attributes of a jump with a target. -/
def jumpAttributes (keyword target : String) : List (String × String) :=
  [("keyword", keyword), ("target", target)]

/-- The attributes of a labeled expression that is a jump: its first label is the
keyword of one. -/
def labeledJump? (children : Forest Token) : Option (List (String × String)) := do
  let marker ← childOfType? ["label"] children
  let keyword ← jumpLabels.lookup marker.value.shown
  return jumpAttributes keyword (jumpTarget marker.value children)

/-- The name that a return goes to, or the empty text. -/
def returnTarget (children : Forest Token) : String :=
  match childOfType? ["return@"] children with
  | none => ""
  | some marker => jumpTarget marker.value children

/-- Whether a property can be assigned to. -/
def isMutable (children : Forest Token) : Bool :=
  ((childOfType? ["binding_pattern_kind", "val", "var"] children).map
    fun binding => binding.value.shown == "var").getD false

/-- The type of the first child of one of the given types, or the empty text. -/
def operatorAmong (types : List String) (children : Forest Token) : String :=
  ((childOfType? types children).map (·.value.type)).getD ""

/-! ## The backing field -/

/-- The types of the accessors of a property. -/
def accessorTypes : List String := ["getter", "setter"]

/-- The types that end the search for an enclosing accessor. -/
def accessorBounds : List String :=
  ["property_declaration", "function_declaration", "class_body", "source_file"]

/-- Whether the types above a node, the nearest first, show it inside an accessor. -/
def isInsideAccessor : List String → Bool
  | [] => false
  | type :: rest =>
    if accessorTypes.contains type then true
    else if accessorBounds.contains type then false
    else isInsideAccessor rest

/-! ## Classification -/

/-- The element of a node of a kind that needs a look at its children or at the types
above, where the node is of one. -/
def construct? (above : List String) (token : Token) (children : Forest Token) :
    Option Element :=
  match token.type with
  | "class_declaration" => some ⟨.known .classDeclaration, classAttributes children⟩
  | "object_declaration" => some ⟨.known .object, []⟩
  | "companion_object" => some ⟨.known .object, flag "companion" true⟩
  | "enum_entry" =>
    some ⟨.known .enumEntry, flag "body" (hasChildOfType "class_body" children)⟩
  | "function_declaration" => some ⟨.known .function, functionAttributes children⟩
  | "anonymous_function" =>
    some ⟨.known .lambda, flag "return_type" (hasChildOfType ":" children)⟩
  | "label" => if isLabelText token.shown then some ⟨.known .label, []⟩ else none
  | "labeled_expression" => (labeledJump? children).map fun attributes =>
      ⟨.known .jump, attributes⟩
  | "return_expression" =>
    some ⟨.known .jump, jumpAttributes "return" (returnTarget children)⟩
  | "when_expression" =>
    some ⟨.known .whenBranches, flag "subject" (hasChildOfType "when_subject" children)⟩
  | "property_declaration" =>
    some ⟨.known .property, flag "mutable" (isMutable children)⟩
  | "type_parameter" => some ⟨.known .typeParameter, [("variance", variance children)]⟩
  | "type_projection" =>
    let projection := if hasChildOfType "*" children then "*" else variance children
    some ⟨.known .typeArgument, [("projection", projection)]⟩
  | "range_expression" =>
    some ⟨.known .binary, [("operator", operatorAmong ["..", "..<"] children)]⟩
  | "as_expression" =>
    some ⟨.known .typeCast, [("operator", operatorAmong ["as", "as?"] children)]⟩
  | type =>
    if identifierTypes.contains type && token.shown == "field" && isInsideAccessor above then
      some ⟨.known .fieldReference, []⟩
    else none

/-- The element of a node, given the types above it, the nearest first. -/
def classify (above : List String) (token : Token) (children : Forest Token) : Element :=
  if token.type == "ERROR" || token.missing then ⟨.known .error, []⟩
  else match simpleKinds.lookup token.type with
    | some kind => ⟨.known kind, []⟩
    | none =>
      (construct? above token children).getD ⟨.known .node, [("type", token.type)]⟩

/-- A supplied token is an error. -/
theorem classify_of_missing {above : List String} {token : Token} {children : Forest Token}
    (h : token.missing = true) : classify above token children = ⟨.known .error, []⟩ := by
  simp [classify, h]

end Syntax
end FeatureCensus
