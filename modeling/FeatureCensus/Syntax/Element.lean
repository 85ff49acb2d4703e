import FeatureCensus.Tree

/-!
# Normalized trees

The tree that features are counted in: elements of a small number of kinds, the
same for every grammar, with named attributes.  A tree made by hand may also hold
comments and elements of no known kind.

Main results:

- Theorem {lit}`Syntax.Kind.ofName?_name`: a kind is known by its name.
- Theorem {lit}`Syntax.Tag.ofName_name`: so is the tag of every element but a comment.
- Theorem {lit}`Syntax.Element.isOf_known`: an element of a known kind is of no other.
-/

namespace FeatureCensus
namespace Syntax

/-! ## Kinds -/

/-- The kinds of elements. -/
inductive Kind where
  | file
  | error
  | delegation
  /-- A class, interface or enum class.  Attributes: enum, inner, interface,
  type_parameters, constructor_visibility, constructor_parameters. -/
  | classDeclaration
  /-- The members of a class or object. -/
  | body
  /-- Another member: a constructor, initializer or alias. -/
  | declaration
  /-- Attributes: body. -/
  | enumEntry
  /-- Attributes: companion. -/
  | object
  /-- Attributes: inline, receiver. -/
  | function
  /-- Attributes: return_type. -/
  | lambda
  | label
  /-- Attributes: keyword, target. -/
  | jump
  | whileLoop
  | doWhileLoop
  /-- Attributes: subject. -/
  | whenBranches
  | whenRangeCondition
  /-- Attributes: mutable. -/
  | property
  /-- Attributes: variance. -/
  | typeParameter
  /-- Attributes: projection. -/
  | typeArgument
  /-- Attributes: operator. -/
  | binary
  /-- Attributes: operator. -/
  | typeCast
  | fieldReference
  /-- A node of no other kind.  Attributes: type. -/
  | node
  deriving DecidableEq, Repr, Inhabited

namespace Kind

/-- The name of a kind. -/
def name : Kind → String
  | file => "file"
  | error => "error"
  | delegation => "delegation"
  | classDeclaration => "class"
  | body => "body"
  | declaration => "declaration"
  | enumEntry => "enum_entry"
  | object => "object"
  | function => "function"
  | lambda => "lambda"
  | label => "label"
  | jump => "jump"
  | whileLoop => "while"
  | doWhileLoop => "do_while"
  | whenBranches => "when"
  | whenRangeCondition => "when_range_condition"
  | property => "property"
  | typeParameter => "type_parameter"
  | typeArgument => "type_argument"
  | binary => "binary"
  | typeCast => "type_cast"
  | fieldReference => "field_reference"
  | node => "node"

/-- All kinds. -/
def all : List Kind :=
  [file, error, delegation, classDeclaration, body, declaration, enumEntry, object, function,
    lambda, label, jump, whileLoop, doWhileLoop, whenBranches, whenRangeCondition, property,
    typeParameter, typeArgument, binary, typeCast, fieldReference, node]

/-- The kind of a name. -/
def ofName? (s : String) : Option Kind :=
  all.find? fun kind => kind.name == s

/-- A kind is known by its name. -/
theorem ofName?_name (kind : Kind) : ofName? kind.name = some kind := by
  cases kind <;> rfl

/-- Different kinds have different names. -/
theorem name_injective {kind other : Kind} (h : kind.name = other.name) : kind = other := by
  have hsome : some kind = some other := by
    rw [← ofName?_name kind, ← ofName?_name other, h]
  exact Option.some.inj hsome

end Kind

/-! ## Elements -/

/-- What an element is: a comment, of a kind, or of no known kind. -/
inductive Tag where
  | comment
  | known (kind : Kind)
  | unknown (name : String)
  deriving DecidableEq, Repr, Inhabited

namespace Tag

/-- The tag of a name. -/
def ofName (s : String) : Tag :=
  match Kind.ofName? s with
  | some kind => known kind
  | none => unknown s

/-- The name of a tag; a comment has none. -/
def name? : Tag → Option String
  | comment => none
  | known kind => some kind.name
  | unknown s => some s

/-- The tag of every element but a comment is known by its name. -/
theorem ofName_name (s : String) : (ofName s).name? = some s := by
  unfold ofName
  split
  · rename_i kind h
    have := List.find?_some h
    simp only [beq_iff_eq] at this
    simp [name?, this]
  · rfl

end Tag

/-- An element: its tag and its attributes. -/
structure Element where
  tag : Tag
  attributes : List (String × String)
  deriving DecidableEq, Repr, Inhabited

/-- A normalized tree. -/
abbrev ElementTree := Tree Element

namespace Element

/-- The value of an attribute. -/
def attribute? (e : Element) (name : String) : Option String :=
  e.attributes.lookup name

/-- The value of a set attribute that is either set or absent. -/
def setValue : String := "true"

/-- Whether an attribute is set. -/
def isSet (e : Element) (name : String) : Bool :=
  e.attribute? name == some setValue

/-- Whether the element is of a kind, which its tag names. -/
def isOf (e : Element) (kind : Kind) : Bool :=
  e.tag.name? == some kind.name

/-- An element of a known kind is of no other. -/
@[simp]
theorem isOf_known (kind other : Kind) (attributes : List (String × String)) :
    (Element.mk (.known kind) attributes).isOf other = decide (kind = other) := by
  simp only [isOf, Tag.name?]
  by_cases h : kind = other
  · simp [h]
  · have hname : kind.name ≠ other.name := fun heq => h (Kind.name_injective heq)
    simp [h, hname]

end Element

end Syntax
end FeatureCensus
