import FeatureCensus.Syntax.Element
import FeatureCensus.Text.Quoted
import FeatureCensus.Text.Reference

/-!
# Markup

What markup can hold: the characters of attribute values and the names of tags and
attributes, which may begin with a namespace in braces.  Elements that are made from a parser
tree have the names of this library, so that only their values need to be looked at.

Main results:

- Theorem {lit}`Syntax.Kind.isMarkupName_name`: the names of kinds are allowed.
-/

namespace FeatureCensus
namespace Syntax

open Text

/-! ## Errors -/

/-- What cannot be written as markup. -/
inductive MarkupError where
  /-- This text holds a character that markup cannot hold. -/
  | illegalText (text : String)
  /-- A tag or an attribute has no name. -/
  | emptyName
  /-- A namespace is not closed. -/
  | openNamespace
  | badTag (name : String)
  | badAttribute (name : String)
  /-- The text of a namespace is no reference. -/
  | badNamespace (reference : String)
  deriving DecidableEq, Repr, Inhabited

/-- The text of the error. -/
def MarkupError.message : MarkupError → String
  | .illegalText _ =>
    "All strings must be XML compatible: Unicode or ASCII, no NULL bytes or control characters"
  | .emptyName => "Empty tag name"
  | .openNamespace => "Invalid tag name"
  | .badTag name => "Invalid tag name " ++ quoted name
  | .badAttribute name => "Invalid attribute name " ++ quoted name
  | .badNamespace reference => "Invalid namespace URI " ++ quoted reference

/-! ## Texts -/

/-- The characters that markup can hold. -/
def isMarkupChar (c : Char) : Bool :=
  (32 ≤ c.toNat || c == '\t' || c == '\n' || c == '\r') && c.toNat != 0xFFFE &&
    c.toNat != 0xFFFF

/-- Whether markup can hold a text. -/
def isMarkupText (s : String) : Bool :=
  s.toList.all isMarkupChar

/-- An element whose attribute values are allowed. -/
def Element.checked (e : Element) : Except MarkupError Element :=
  match e.attributes.find? fun entry => !isMarkupText entry.2 with
  | some entry => .error (.illegalText entry.2)
  | none => .ok e

/-! ## Names -/

/-- The ranges of the characters that a name may begin with, by their codes. -/
def nameStartRanges : List (Nat × Nat) :=
  [(0x41, 0x5A), (0x5F, 0x5F), (0x61, 0x7A), (0xC0, 0xD6), (0xD8, 0xF6), (0xF8, 0x2FF),
    (0x370, 0x37D), (0x37F, 0x1FFF), (0x200C, 0x200D), (0x2070, 0x218F), (0x2C00, 0x2FEF),
    (0x3001, 0xD7FF), (0xF900, 0xFDCF), (0xFDF0, 0xFFFD), (0x10000, 0xEFFFF)]

/-- The ranges of the other characters of names, by their codes. -/
def nameRestRanges : List (Nat × Nat) :=
  [(0x2D, 0x2E), (0x30, 0x39), (0xB7, 0xB7), (0x300, 0x36F), (0x203F, 0x2040)]

/-- Whether a character lies in one of the ranges. -/
def inRanges (ranges : List (Nat × Nat)) (c : Char) : Bool :=
  ranges.any fun (first, last) => first ≤ c.toNat && c.toNat ≤ last

/-- Whether a text is a name without a part for a namespace. -/
def isMarkupName (s : String) : Bool :=
  match s.toList with
  | [] => false
  | c :: cs => inRanges nameStartRanges c && cs.all (inRanges (nameStartRanges ++ nameRestRanges))

/-- The names of kinds are allowed. -/
theorem Kind.isMarkupName_name (kind : Kind) : isMarkupName kind.name = true := by
  cases kind <;> decide +kernel

/-- A name in its parts. -/
structure MarkupName where
  /-- The namespace, if there is one. -/
  space? : Option String
  localPart : String
  deriving DecidableEq, Repr, Inhabited

namespace MarkupName

/-- The parts of a written name.  An empty namespace is none. -/
def of (written : String) : Except MarkupError MarkupName :=
  match written.toList with
  | [] => .error .emptyName
  | '{' :: rest =>
    let space := rest.takeWhile (· != '}')
    match rest.dropWhile (· != '}') with
    | [] => .error .openNamespace
    | [_] => .error .emptyName
    | _ :: localPart =>
      .ok ⟨if space.isEmpty then none else some (String.ofList space), String.ofList localPart⟩
  | _ => .ok ⟨none, written⟩

/-- The written form of a name. -/
def written (name : MarkupName) : String :=
  match name.space? with
  | none => name.localPart
  | some space => "\x7b" ++ space ++ "\x7d" ++ name.localPart

/-- Refuses a namespace that is no reference. -/
def checkNamespace (name : MarkupName) : Except MarkupError Unit :=
  match name.space? with
  | none => .ok ()
  | some space =>
    if isReference space.toList then .ok () else .error (.badNamespace space)

end MarkupName

/-- The parts of a name, whose namespace is not looked at. -/
def readName (written : String) : Except MarkupError MarkupName :=
  if isMarkupText written then MarkupName.of written else .error (.illegalText written)

/-- The parts of the name of a tag. -/
def readTag (written : String) : Except MarkupError MarkupName := do
  let name ← readName written
  if isMarkupName name.localPart then
    name.checkNamespace
    return name
  else throw (.badTag name.localPart)

/-- Adds an attribute to those before it, of which one of the same name stays as it is. -/
def addAttribute (attributes : List (String × String)) (entry : String × String) :
    Except MarkupError (List (String × String)) := do
  let name ← readName entry.1
  if (attributes.lookup name.written).isSome then return attributes
  else if !isMarkupName name.localPart then throw (.badAttribute name.localPart)
  else if !isMarkupText entry.2 then throw (.illegalText entry.2)
  else
    name.checkNamespace
    return attributes ++ [(name.written, entry.2)]

/-- The element that is made by hand from a name and attributes, which are looked at one
after the other. -/
def Element.byHand (written : String) (attributes : List (String × String)) :
    Except MarkupError Element := do
  let name ← readTag written
  let attributes ← attributes.foldlM addAttribute []
  return ⟨Tag.ofName name.written, attributes⟩

end Syntax
end FeatureCensus
