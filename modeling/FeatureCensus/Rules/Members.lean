import FeatureCensus.Rules.Rule

/-!
# Members and enclosing classes

What rules need to know of a class besides its own attributes: its member
declarations, whether enum entries and other members are mixed among them, and
whether a class around it declares type parameters.

Main definitions:

- Definition {lit}`declarations`: the member declarations of a class.
- Definition {lit}`hasEntriesAndMembersMixed`: whether entries and other members are mixed.
-/

namespace FeatureCensus

open Syntax Text

/-! ## Members -/

/-- The kinds of member declarations. -/
def memberKinds : List Kind :=
  [.classDeclaration, .object, .function, .property, .enumEntry, .declaration]

/-- Whether an element is a member declaration. -/
def isMember (e : Element) : Bool :=
  memberKinds.any e.isOf

/-- The member declarations of a class or object: the members in its first body. -/
def declarations (owner : ElementTree) : Forest Element :=
  match owner.children.find? fun child => child.value.isOf .body with
  | none => []
  | some body => body.children.filter fun child => isMember child.value

/-- Whether an entry follows another member, where one may have come before. -/
def mixedAfter (insideEntries : Bool) : Forest Element → Bool
  | [] => false
  | member :: rest =>
    if member.value.isOf .enumEntry then
      if insideEntries then mixedAfter true rest else true
    else mixedAfter false rest

/-- Whether an enum entry follows any other member. -/
def hasEntriesAndMembersMixed (owner : ElementTree) : Bool :=
  mixedAfter true (declarations owner)

/-! ## Numbers in attributes -/

/-- The number in an attribute, which is zero where the attribute is absent. -/
def Syntax.Element.number (e : Element) (name : String) : Except IntegerError Int :=
  match e.attribute? name with
  | none => .ok 0
  | some text => parseInteger text

/-- Whether the number in an attribute is positive. -/
def Syntax.Element.isPositive (e : Element) (name : String) : Except IntegerError Bool :=
  (e.number name).map fun n => decide (0 < n)

/-! ## Enclosing classes -/

/-- Whether any class among the elements above declares type parameters; the nearest
class is asked first, and none after one that does. -/
def hasOuterTypeParameters : List Element → Except IntegerError Bool
  | [] => .ok false
  | e :: above =>
    if e.isOf .classDeclaration then
      match e.isPositive "type_parameters" with
      | .error error => .error error
      | .ok true => .ok true
      | .ok false => hasOuterTypeParameters above
    else hasOuterTypeParameters above

/-- Whether any element above is a class. -/
def isInsideClass (above : List Element) : Bool :=
  above.any fun e => e.isOf .classDeclaration

end FeatureCensus
