import FeatureCensus.Proofs.Syntax.Outline

/-!
# Backing fields

The word {lit}`field` is a backing-field reference where a look at the types above it, from
the nearest one on, comes to an accessor.  The look ends at the members of a class and at the
file, as it should: no accessor beyond them has this word in its body.  It also ends at any
property or function, and so at a local one in the body of an accessor, where the word still
stands for the backing field.

Main results:

- Theorem {lit}`Syntax.isInsideAccessor_iff`: the look finds an accessor exactly if there is one
  with none of the bounds nearer.
- Theorem {lit}`Syntax.reachesAccessor_accessorBounds_iff`: what it misses are the accessors
  hidden by a local declaration.
- Theorem {lit}`Syntax.classify_field`: the references among the nodes of a tree, and what
  becomes of the other ones.
- Theorem {lit}`Syntax.classify_hiddenField`: a reference that a local property hides.
-/

namespace FeatureCensus
namespace Syntax

/-! ## Bounds -/

/-- The types that no body of an accessor goes beyond: the members of a class and the file. -/
def memberBounds : List String := ["class_body", "source_file"]

/-- The types of the declarations that can be local ones in the body of an accessor. -/
def localTypes : List String := ["property_declaration", "function_declaration"]

theorem accessorBounds_eq : accessorBounds = localTypes ++ memberBounds := rfl

theorem not_mem_accessorBounds_of_accessor {type : String} (h : type ∈ accessorTypes) :
    type ∉ accessorBounds := by
  have hall : ∀ type ∈ accessorTypes, type ∉ accessorBounds := by decide
  exact hall type h

theorem not_mem_memberBounds_of_local {type : String} (h : type ∈ localTypes) :
    type ∉ memberBounds := by
  have hall : ∀ type ∈ localTypes, type ∉ memberBounds := by decide
  exact hall type h

/-! ## Accessors above -/

/-- A list is split at its first element, or else its rest is split. -/
theorem exists_split_cons {p q : String → Prop} {r : List String → Prop} (type : String)
    (rest : List String) :
    (∃ nearer found farther, type :: rest = nearer ++ found :: farther ∧ q found ∧
        (∀ other ∈ nearer, p other) ∧ r farther) ↔
      q type ∧ r rest ∨
        p type ∧ ∃ nearer found farther, rest = nearer ++ found :: farther ∧ q found ∧
          (∀ other ∈ nearer, p other) ∧ r farther := by
  constructor
  · rintro ⟨nearer, found, farther, heq, hfound, hnearer, hfarther⟩
    cases nearer with
    | nil =>
      obtain ⟨rfl, rfl⟩ := List.cons.inj heq
      exact .inl ⟨hfound, hfarther⟩
    | cons first nearer =>
      obtain ⟨rfl, rfl⟩ := List.cons.inj heq
      rw [List.forall_mem_cons] at hnearer
      exact .inr ⟨hnearer.1, nearer, found, farther, rfl, hfound, hnearer.2, hfarther⟩
  · rintro (⟨htype, hrest⟩ | ⟨htype, nearer, found, farther, rfl, hfound, hnearer, hfarther⟩)
    · exact ⟨[], type, rest, rfl, htype, by simp, hrest⟩
    · exact ⟨type :: nearer, found, farther, rfl, hfound,
        List.forall_mem_cons.mpr ⟨htype, hnearer⟩, hfarther⟩

/-- Among the types above a node, the nearest first, there is that of an accessor with none of
the bounds nearer to the node. -/
def ReachesAccessor (bounds above : List String) : Prop :=
  ∃ nearer accessor farther, above = nearer ++ accessor :: farther ∧
    accessor ∈ accessorTypes ∧ ∀ type ∈ nearer, type ∉ bounds

theorem not_reachesAccessor_nil (bounds : List String) : ¬ ReachesAccessor bounds [] := by
  rintro ⟨nearer, accessor, farther, heq, -, -⟩
  simp at heq

theorem reachesAccessor_cons {bounds : List String} {type : String} {rest : List String} :
    ReachesAccessor bounds (type :: rest) ↔
      type ∈ accessorTypes ∨ type ∉ bounds ∧ ReachesAccessor bounds rest := by
  have hsplit := exists_split_cons (p := (· ∉ bounds)) (q := (· ∈ accessorTypes))
    (r := fun _ => True) type rest
  simpa [ReachesAccessor] using hsplit

/-- The look at the types above finds an accessor exactly if there is one with none of the
bounds nearer. -/
theorem isInsideAccessor_iff (above : List String) :
    isInsideAccessor above = true ↔ ReachesAccessor accessorBounds above := by
  induction above with
  | nil => simp [isInsideAccessor, not_reachesAccessor_nil]
  | cons type rest ih =>
    rw [reachesAccessor_cons, isInsideAccessor]
    by_cases haccessor : type ∈ accessorTypes
    · simp [haccessor]
    · by_cases hbound : type ∈ accessorBounds
      · simp [haccessor, hbound]
      · simp [haccessor, hbound, ih]

/-! ## Hidden accessors -/

/-- The nearest of the types that the look ends at is that of a declaration, and this is a local
one: beyond it comes an accessor, with no member of a class and no file in between. -/
def IsHidden (above : List String) : Prop :=
  ∃ nearer declaration farther, above = nearer ++ declaration :: farther ∧
    declaration ∈ localTypes ∧ (∀ type ∈ nearer, type ∉ accessorTypes ++ accessorBounds) ∧
    ReachesAccessor memberBounds farther

theorem isHidden_cons {type : String} {rest : List String} :
    IsHidden (type :: rest) ↔
      type ∈ localTypes ∧ ReachesAccessor memberBounds rest ∨
        type ∉ accessorTypes ++ accessorBounds ∧ IsHidden rest :=
  exists_split_cons type rest

/-- An accessor is reached with no bound nearer exactly if it is reached with no member of a class
and no file nearer, and no local declaration hides it. -/
theorem reachesAccessor_accessorBounds_iff (above : List String) :
    ReachesAccessor accessorBounds above ↔
      ReachesAccessor memberBounds above ∧ ¬ IsHidden above := by
  induction above with
  | nil => simp [not_reachesAccessor_nil]
  | cons type rest ih =>
    rw [reachesAccessor_cons, reachesAccessor_cons, isHidden_cons]
    by_cases haccessor : type ∈ accessorTypes
    · have hbound := not_mem_accessorBounds_of_accessor haccessor
      have hlocal : type ∉ localTypes := fun h => hbound (List.mem_append_left _ h)
      simp [haccessor, hlocal]
    by_cases hlocal : type ∈ localTypes
    · have hbound : type ∈ accessorBounds := List.mem_append_left _ hlocal
      -- The declaration is a bound, so whatever comes beyond it is not reached but hidden.
      simp [haccessor, hbound, hlocal, not_mem_memberBounds_of_local hlocal]
    by_cases hmember : type ∈ memberBounds
    · have hbound : type ∈ accessorBounds := List.mem_append_right localTypes hmember
      simp [haccessor, hbound, hmember, hlocal]
    · have hbound : type ∉ accessorBounds := by
        rw [accessorBounds_eq, List.mem_append]
        exact not_or.mpr ⟨hlocal, hmember⟩
      simp [haccessor, hbound, hlocal, hmember, ih]

/-- The look finds the accessor that a node is in the body of, unless a local declaration
hides it. -/
theorem isInsideAccessor_iff_not_isHidden (above : List String) :
    isInsideAccessor above = true ↔
      ReachesAccessor memberBounds above ∧ ¬ IsHidden above :=
  (isInsideAccessor_iff above).trans (reachesAccessor_accessorBounds_iff above)

/-! ## References -/

/-- What an identifier with the word {lit}`field` becomes. -/
theorem classify_fieldIdentifier (above : List String) {token : Token} (children : Forest Token)
    (htype : token.type ∈ identifierTypes) (hshown : token.shown = "field")
    (hmissing : token.missing = false) :
    classify above token children =
      if isInsideAccessor above then ⟨.known .fieldReference, []⟩
      else ⟨.known .node, [("type", token.type)]⟩ := by
  have hsimple : simpleKinds.lookup token.type = none := by
    have hall : ∀ type ∈ identifierTypes, simpleKinds.lookup type = none := by decide
    exact hall _ htype
  simp only [identifierTypes, List.mem_cons, List.not_mem_nil, or_false] at htype
  rw [classify, hsimple]
  obtain htype | htype := htype
  all_goals
    cases hinside : isInsideAccessor above <;>
      simp [construct?, identifierTypes, htype, hshown, hmissing, hinside]

/-- The identifiers of a parser tree with the word {lit}`field` are references exactly if they
stand in an accessor, with no class and no file in between, that no local declaration hides;
all others are plain nodes.  If it can be seen, the node of the normalized tree tells the
same. -/
theorem classify_field {tree : ParseTree} {p : Spot} (hp : p ∈ tree.positions)
    (htype : p.here.value.type ∈ identifierTypes) (hshown : p.here.value.shown = "field")
    (hmissing : p.here.value.missing = false) :
    (classify p.typesAbove p.here.value p.here.children = ⟨.known .fieldReference, []⟩ ↔
        ReachesAccessor memberBounds p.typesAbove ∧ ¬ IsHidden p.typesAbove) ∧
      (classify p.typesAbove p.here.value p.here.children =
          ⟨.known .node, [("type", p.here.value.type)]⟩ ↔
        ¬ ReachesAccessor memberBounds p.typesAbove ∨ IsHidden p.typesAbove) ∧
      (p.isVisible = true → p.image ∈ (conversion [] tree).visits ∧
        (p.image.here.value.isOf .fieldReference = true ↔
          ReachesAccessor memberBounds p.typesAbove ∧ ¬ IsHidden p.typesAbove)) := by
  have hclassify := classify_fieldIdentifier p.typesAbove p.here.children htype hshown hmissing
  have hinside := isInsideAccessor_iff_not_isHidden p.typesAbove
  have hmissed : ¬ isInsideAccessor p.typesAbove = true ↔
      ¬ ReachesAccessor memberBounds p.typesAbove ∨ IsHidden p.typesAbove := by
    rw [hinside, Classical.not_and_iff_not_or_not, Classical.not_not]
  refine ⟨?_, ?_, fun hvisible => ⟨?_, ?_⟩⟩
  · rw [hclassify, ← hinside]
    cases isInsideAccessor p.typesAbove <;> simp
  · rw [hclassify, ← hmissed]
    cases isInsideAccessor p.typesAbove <;> simp
  · rw [visits_conversion, visibleSpots]
    exact List.mem_map_of_mem (List.mem_filter.mpr ⟨hp, hvisible⟩)
  · rw [Spot.image, value_conversion, placedElement, hclassify, ← hinside]
    cases isInsideAccessor p.typesAbove <;> simp

/-- The node of a type between two offsets. -/
def typedNode (type : String) (start stop : Nat) (children : Forest Token) : ParseTree :=
  .node ⟨type, start, stop, true, false, none, []⟩ children

/-- An identifier with the word {lit}`field`. -/
def fieldNode (start : Nat) : ParseTree :=
  .node ⟨"identifier", start, start + 5, true, false, none, "field".toUTF8.toList⟩ []

/-- A local property that is set to the backing field, at the start of the body of a getter. -/
def localProperty : ParseTree :=
  typedNode "property_declaration" 19 32 [fieldNode 27]

/-- The statement that returns the backing field, after the local property. -/
def returnStatement : ParseTree :=
  typedNode "return_expression" 34 46 [fieldNode 41]

/-- The body of the getter. -/
def getterBody : ParseTree :=
  typedNode "function_body" 17 48 [localProperty, returnStatement]

/-- The getter. -/
def getterNode : ParseTree :=
  typedNode "getter" 11 48 [getterBody]

/-- The property of the getter. -/
def propertyNode : ParseTree :=
  typedNode "property_declaration" 0 48 [getterNode]

/-- The file with the property. -/
def getterFile : ParseTree :=
  typedNode "source_file" 0 48 [propertyNode]

/-- The place of the word in the statement that returns it. -/
def returnedField : Spot :=
  ⟨[returnStatement, getterBody, getterNode, propertyNode, getterFile], fieldNode 41⟩

/-- The place of the word in the local property. -/
def hiddenField : Spot :=
  ⟨[localProperty, getterBody, getterNode, propertyNode, getterFile], fieldNode 27⟩

theorem shown_fieldNode (start : Nat) : (fieldNode start).value.shown = "field" := by
  change Text.decodeLenient "field".toUTF8.toList = "field"
  decide +kernel

/-- In the body of a getter the returned word is a reference, in the normalized tree too. -/
theorem classify_returnedField :
    returnedField ∈ getterFile.positions ∧
      ReachesAccessor memberBounds returnedField.typesAbove ∧
      ¬ IsHidden returnedField.typesAbove ∧
      classify returnedField.typesAbove (fieldNode 41).value [] =
        ⟨.known .fieldReference, []⟩ ∧
      returnedField.image ∈ (conversion [] getterFile).visits ∧
      returnedField.image.here.value.isOf .fieldReference = true := by
  have hmem : returnedField ∈ getterFile.positions := List.mem_of_getElem? (i := 7) rfl
  have hreaches := (isInsideAccessor_iff_not_isHidden returnedField.typesAbove).mp (by decide)
  obtain ⟨hreference, -, hseen⟩ := classify_field hmem (by decide) (shown_fieldNode 41) rfl
  obtain ⟨himage, hkind⟩ := hseen (by decide)
  exact ⟨hmem, hreaches.1, hreaches.2, hreference.mpr hreaches, himage, hkind.mpr hreaches⟩

/-- In a local property the word is a plain node, though the getter comes with no member of a
class and no file in between. -/
theorem classify_hiddenField :
    hiddenField ∈ getterFile.positions ∧
      (fieldNode 27).value.type ∈ identifierTypes ∧ (fieldNode 27).value.shown = "field" ∧
      (fieldNode 27).value.missing = false ∧
      ReachesAccessor memberBounds hiddenField.typesAbove ∧
      classify hiddenField.typesAbove (fieldNode 27).value [] =
        ⟨.known .node, [("type", "identifier")]⟩ := by
  have hmem : hiddenField ∈ getterFile.positions := List.mem_of_getElem? (i := 5) rfl
  have hreaches : ReachesAccessor memberBounds hiddenField.typesAbove :=
    ⟨["property_declaration", "function_body"], "getter", ["property_declaration", "source_file"],
      rfl, by decide, by decide⟩
  refine ⟨hmem, by decide, shown_fieldNode 27, rfl, hreaches, ?_⟩
  have hmissed : isInsideAccessor hiddenField.typesAbove = false := by decide
  rw [classify_fieldIdentifier _ _ (by decide) (shown_fieldNode 27) rfl, hmissed]
  rfl

end Syntax
end FeatureCensus
