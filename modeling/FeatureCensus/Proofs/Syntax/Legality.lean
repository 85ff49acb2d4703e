import FeatureCensus.Association
import FeatureCensus.Proofs.Syntax.Outline
import FeatureCensus.Proofs.Text.Numerals

/-!
# Values that markup cannot hold

Most values in a normalized tree are words of the library, numerals and types of nodes.  The
others are texts of the source: what a jump goes to, and the variance of a type parameter or a type
argument.  Where the types of the nodes are such that markup can hold them, these texts alone can
keep a tree from being made.

Main results:

- Theorem {lit}`Syntax.isMarkupText_toString`: markup can hold numerals.
- Theorem {lit}`Syntax.mem_textNames_of_conversion`: which values markup may be unable to hold.
-/

namespace FeatureCensus
namespace Syntax

open Text

/-- Markup can hold the numerals of numbers. -/
theorem isMarkupText_toString (n : Nat) : isMarkupText (toString n) = true := by
  rw [isMarkupText, Nat.toString_eq_repr, Nat.toList_repr, List.all_eq_true]
  intro c hc
  obtain ⟨hlow, hhigh⟩ := toNat_of_isDigit (isDigit_of_mem_toDigits_ten hc)
  simp only [isMarkupChar, Bool.and_eq_true, Bool.or_eq_true, decide_eq_true_iff, bne_iff_ne]
  omega

/-! ## Attributes -/

/-- The names of the attributes whose values are texts of the source. -/
def textNames : List String := ["target", "variance", "projection"]

/-- Whether markup can hold the values of all attributes but those that are texts of the source. -/
def AreSafe (attributes : List (String × String)) : Prop :=
  ∀ entry ∈ attributes, isMarkupText entry.2 = false → entry.1 ∈ textNames

namespace AreSafe

variable {first second : List (String × String)}

theorem nil : AreSafe [] := by
  intro entry h
  cases h

theorem append (hfirst : AreSafe first) (hsecond : AreSafe second) : AreSafe (first ++ second) :=
  fun entry h => (List.mem_append.1 h).elim (hfirst entry) (hsecond entry)

theorem of_value {value : String} (h : isMarkupText value = true) (name : String) :
    AreSafe [(name, value)] := by
  intro entry hentry hillegal
  rw [List.mem_singleton.1 hentry, h] at hillegal
  cases hillegal

/-- Of a text of the source nothing is asked. -/
theorem of_name {name : String} (h : name ∈ textNames) (value : String) :
    AreSafe [(name, value)] := by
  intro entry hentry _
  rwa [List.mem_singleton.1 hentry]

theorem numeral (name : String) (n : Nat) : AreSafe [(name, toString n)] :=
  of_value (isMarkupText_toString n) name

theorem flag (name : String) (set : Bool) : AreSafe (flag name set) := by
  cases set with
  | false => exact nil
  | true => exact of_value (by decide) name

theorem optional {name : String} {value? : Option String}
    (h : ∀ value, value? = some value → isMarkupText value = true) :
    AreSafe (optional name value?) := by
  cases value? with
  | none => exact nil
  | some value => exact of_value (h value rfl) name

end AreSafe

/-! ## Elements -/

theorem areSafe_classAttributes (children : Forest Token) : AreSafe (classAttributes children) := by
  have hconstructor : AreSafe
      (((childOfType? ["primary_constructor"] children).map constructorAttributes).getD []) := by
    cases childOfType? ["primary_constructor"] children with
    | none => exact .nil
    | some constructor =>
      refine .append (.optional fun value hvalue => ?_) (.numeral _ _)
      have hlegal : ∀ visibility ∈ visibilities, isMarkupText visibility = true := by decide
      exact hlegal value (by simpa using List.find?_some hvalue)
  refine .append (.append (.append (.append (.flag _ _) (.flag _ _)) (.flag _ _))
    (.optional fun value hvalue => ?_)) hconstructor
  obtain ⟨list, -, rfl⟩ := Option.map_eq_some_iff.1 hvalue
  exact isMarkupText_toString _

theorem areSafe_jumpAttributes {keyword : String} (h : isMarkupText keyword = true)
    (target : String) : AreSafe (jumpAttributes keyword target) :=
  .append (.of_value h "keyword") (.of_name (by decide) target)

theorem isMarkupText_operatorAmong {types : List String}
    (h : ∀ type ∈ types, isMarkupText type = true) (children : Forest Token) :
    isMarkupText (operatorAmong types children) = true := by
  rw [operatorAmong]
  cases hchild : childOfType? types children with
  | none => rfl
  | some child => exact h _ (childOfType?_eq_some hchild).2

theorem areSafe_construct? (above : List String) {token : Token} (children : Forest Token)
    {e : Element} (he : construct? above token children = some e) : AreSafe e.attributes := by
  unfold construct? at he
  split at he
  case h_1 => exact Option.some.inj he ▸ areSafe_classAttributes children
  case h_2 => exact Option.some.inj he ▸ .nil
  case h_3 => exact Option.some.inj he ▸ .flag "companion" true
  case h_4 => exact Option.some.inj he ▸ .flag _ _
  case h_5 => exact Option.some.inj he ▸ .append (.flag _ _) (.flag _ _)
  case h_6 => exact Option.some.inj he ▸ .flag _ _
  case h_7 =>
    split at he
    · exact Option.some.inj he ▸ .nil
    · cases he
  case h_8 =>
    obtain ⟨attributes, hjump, rfl⟩ := Option.map_eq_some_iff.1 he
    simp only [labeledJump?, Option.bind_eq_bind, Option.bind_eq_some_iff, Option.pure_def,
      Option.some.injEq] at hjump
    obtain ⟨marker, -, keyword, hkeyword, rfl⟩ := hjump
    have hlegal : ∀ entry ∈ jumpLabels, isMarkupText entry.2 = true := by decide
    exact areSafe_jumpAttributes (hlegal _ (Association.mem_of_lookup hkeyword)) _
  case h_9 => exact Option.some.inj he ▸ areSafe_jumpAttributes (by decide) _
  case h_10 => exact Option.some.inj he ▸ .flag _ _
  case h_11 => exact Option.some.inj he ▸ .flag _ _
  case h_12 => exact Option.some.inj he ▸ .of_name (by decide) _
  case h_13 => exact Option.some.inj he ▸ .of_name (by decide) _
  case h_14 =>
    exact Option.some.inj he ▸ .of_value (isMarkupText_operatorAmong (by decide) children) _
  case h_15 =>
    exact Option.some.inj he ▸ .of_value (isMarkupText_operatorAmong (by decide) children) _
  case h_16 =>
    split at he
    · exact Option.some.inj he ▸ .nil
    · cases he

theorem areSafe_placedElement (above : List String) {token : Token} (children : Forest Token)
    (h : isMarkupText token.type = true) :
    AreSafe (placedElement above token children).attributes := by
  refine .append ?_ (.append (.numeral "start" token.start) (.numeral "end" token.stop))
  unfold classify
  split
  · exact .nil
  · cases simpleKinds.lookup token.type with
    | some kind => exact .nil
    | none =>
      cases hmade : construct? above token children with
      | none => exact .of_value h "type"
      | some e => exact areSafe_construct? above children hmade

/-- Where markup can hold the types of all nodes, it can hold all values in the tree but those that
are texts of the source. -/
theorem mem_textNames_of_conversion {tree : ParseTree}
    (h : ∀ token ∈ tree.values, isMarkupText token.type = true) {e : Element}
    (he : e ∈ (conversion [] tree).values) {entry : String × String}
    (hentry : entry ∈ e.attributes) (hillegal : isMarkupText entry.2 = false) :
    entry.1 ∈ textNames := by
  rw [← Tree.map_value_visits, visits_conversion, List.map_map] at he
  obtain ⟨p, hp, rfl⟩ := List.mem_map.1 he
  have htoken : p.here.value ∈ tree.values := by
    refine (Tree.sublist_of_mem_positions (List.mem_filter.1 hp).1).1.subset ?_
    cases p.here
    exact List.mem_cons_self
  rw [Function.comp_apply, Spot.image, value_conversion] at hentry
  exact areSafe_placedElement _ _ (h _ htoken) entry hentry hillegal

end Syntax
end FeatureCensus
