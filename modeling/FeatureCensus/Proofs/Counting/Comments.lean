import FeatureCensus.Proofs.Counting.Features
import FeatureCensus.Proofs.Counting.Members
import FeatureCensus.Proofs.Padding
import FeatureCensus.Proofs.Syntax.Conversion
import FeatureCensus.Proofs.Syntax.Legality
import FeatureCensus.Proofs.Syntax.Resemblance

/-!
# Comments

Comments put into a parser tree become plain leaves of the normalized tree, and all other elements
stay as they were.  No rule looks at plain nodes, and the rules that look at members pass them by.
So the same is found in the same order, and every session is left as it would have been without
the comments.

Main results:

- Theorem {lit}`Syntax.padded_hoistAll`: comments become plain leaves of the normalized tree.
- Theorem {lit}`Kotlin.findings_of_padded`: plain leaves change nothing that is found.
- Theorem {lit}`Kotlin.analyzeFile_of_comments`: comments never change the statistics.
-/

namespace FeatureCensus

open Syntax Text

namespace Syntax

/-! ## Elements of comments -/

/-- That a tree is another one with comments put in. -/
def IsCommented (tree commented : ParseTree) : Prop :=
  commented.value = tree.value ∧ Tree.Padded Token.IsComment tree.children commented.children

theorem resembles_of_padded {first second : Forest Token}
    (h : Tree.Padded Token.IsComment first second) : Resembles first second := by
  induction h with
  | nil => exact .nil
  | leaf hcomment _ ih => exact .comment hcomment ih
  | node _ _ ihkids ih => exact .node ihkids ih

/-- A comment is a plain node. -/
theorem classify_comment {token : Token} (h : token.IsComment) (above : List String) :
    classify above token [] = ⟨.known .node, [("type", token.type)]⟩ := by
  have htype : token.type = "line_comment" ∨ token.type = "multiline_comment" := by
    simpa [commentTypes] using h.type
  rw [classify, h.missing]
  rcases htype with htype | htype
  · simp only [construct?, htype]
    rfl
  · simp only [construct?, htype]
    rfl

/-- Whether an element is a plain node that markup can hold. -/
def IsPlainNode (e : Element) : Prop :=
  e.tag = .known .node ∧ e.illegalText? = none

theorem isPlainNode_comment {token : Token} (h : token.IsComment) (above : List String) :
    IsPlainNode (placedElement above token []) := by
  have hlegal : ∀ type ∈ commentTypes, isMarkupText type = true := by decide
  rw [placedElement, classify_comment h]
  refine ⟨rfl, ?_⟩
  have hstart := isMarkupText_toString token.start
  have hstop := isMarkupText_toString token.stop
  simp only [Element.illegalText?, List.cons_append, List.nil_append, List.find?_cons,
    hlegal _ h.type, hstart, hstop, Bool.not_true, List.find?_nil, Option.map_none]

/-! ## The normalized tree -/

/-- Comments become plain leaves of the normalized tree. -/
theorem padded_hoistAll {first second : Forest Token}
    (h : Tree.Padded Token.IsComment first second) (above : List String) :
    Tree.Padded IsPlainNode (hoistAll above first) (hoistAll above second) := by
  induction h generalizing above with
  | nil => rw [hoistAll]; exact .nil
  | @leaf token _ _ hcomment _ ih =>
    have hplain : token.isWrapper = false :=
      hcomment.not_contains wrapperTypes (by decide)
    rw [hoistAll, Tree.value_node, if_pos hcomment.kept, hoist, hplain, hoistAll]
    exact .leaf (isPlainNode_comment hcomment above) (ih above)
  | @node token kids others _ _ hkids _ ihkids ih =>
    rw [hoistAll, hoistAll, Tree.value_node, Tree.value_node]
    refine Tree.Padded.append ?_ (ih above)
    by_cases hkept : token.kept
    · rw [if_pos hkept, if_pos hkept, hoist, hoist,
        (resembles_of_padded hkids).placedElement_eq above token]
      by_cases hwrapper : token.isWrapper
      · rw [if_pos hwrapper, if_pos hwrapper]
        exact ihkids _
      · rw [if_neg hwrapper, if_neg hwrapper]
        exact .node (ihkids _) .nil
    · rw [if_neg hkept, if_neg hkept]
      exact .nil

theorem padded_conversion {tree commented : ParseTree} (h : IsCommented tree commented) :
    Tree.Padded IsPlainNode [conversion [] tree] [conversion [] commented] := by
  obtain ⟨token, kids⟩ := tree
  obtain ⟨other, others⟩ := commented
  obtain ⟨hvalue, hkids⟩ := h
  rw [Tree.value_node, Tree.value_node] at hvalue
  rw [Tree.children_node, Tree.children_node] at hkids
  rw [conversion, conversion, hvalue, (resembles_of_padded hkids).placedElement_eq]
  exact .node (padded_hoistAll hkids _) .nil

/-- Markup can hold the normalized tree also with the comments. -/
theorem normalize_of_comments {tree commented : ParseTree} {made : ElementTree}
    (h : IsCommented tree commented) (hmade : normalize tree = .ok made) :
    made = conversion [] tree ∧ normalize commented = .ok (conversion [] commented) := by
  have hlegal : ∀ e ∈ (conversion [] tree).values, e.illegalText? = none := by
    rw [normalize_eq] at hmade
    cases hillegal : illegalText? (conversion [] tree).values with
    | some text => simp [hillegal] at hmade
    | none => exact List.findSome?_eq_none_iff.1 hillegal
  have hlegalToo : illegalText? (conversion [] commented).values = none := by
    refine List.findSome?_eq_none_iff.2 fun e he => ?_
    have hmem := (padded_conversion h).mem_forestValues (v := e) (by simpa [Tree.forestValues])
    rcases hmem with hold | hnew
    · exact hlegal e (by simpa [Tree.forestValues] using hold)
    · exact hnew.2
  refine ⟨?_, by rw [normalize_eq, hlegalToo]⟩
  rw [normalize_eq, illegalText?, List.findSome?_eq_none_iff.2 hlegal] at hmade
  exact (Except.ok.inj hmade).symm

end Syntax

/-! ## Members -/

/-- A plain node is of no other kind. -/
theorem Syntax.IsPlainNode.isOf {e : Element} (h : IsPlainNode e) {kind : Kind}
    (hkind : kind ≠ .node) : e.isOf kind = false := by
  obtain ⟨tag, attributes⟩ := e
  obtain rfl : tag = .known .node := h.1
  rw [Element.isOf_known, decide_eq_false_iff_not]
  exact hkind.symm

theorem Syntax.IsPlainNode.not_isMember {e : Element} (h : IsPlainNode e) : isMember e = false := by
  have hkinds : ∀ kind ∈ memberKinds, kind ≠ .node := by decide
  rw [isMember, List.any_eq_false]
  intro kind hkind
  rw [h.isOf (hkinds kind hkind)]
  exact Bool.false_ne_true

/-- Plain leaves are no members, so they mix nothing. -/
theorem hasEntriesAndMembersMixed_of_padded {e : Element} {kids others : Forest Element}
    (h : Tree.Padded IsPlainNode kids others) :
    hasEntriesAndMembersMixed (.node e others) = hasEntriesAndMembersMixed (.node e kids) := by
  rw [hasEntriesAndMembersMixed, hasEntriesAndMembersMixed, declarations, declarations,
    Tree.children_node, Tree.children_node]
  have hbody := h.find? (·.isOf .body) fun _ hplain => hplain.isOf (by decide)
  rcases hbody with ⟨hnone, hnoneToo⟩ | ⟨v, inner, innerToo, hsome, hsomeToo, hinner⟩
  · rw [hnone, hnoneToo]
  · rw [hsome, hsomeToo]
    have hvalues := hinner.map_value_filter isMember fun _ hplain => hplain.not_isMember
    refine mixedAfter_congr ?_ true
    have htags := congrArg (List.map (·.tag)) hvalues
    rwa [List.map_map, List.map_map] at htags

/-- Of a file that is recorded the tree does not matter. -/
theorem Analysis.recordAll_of_tree (project : PlaceName) {tree : ElementTree} (other : ElementTree)
    (path : Option String) (lines : LineIndex) (s : Session)
    (findings : List (Element × Finding)) :
    recordAll project ⟨tree, path, lines⟩ s findings =
      recordAll project ⟨other, path, lines⟩ s findings := by
  induction findings generalizing s with
  | nil => rfl
  | cons finding rest ih =>
    have hrecord : record project ⟨tree, path, lines⟩ s finding =
        record project ⟨other, path, lines⟩ s finding := by
      obtain ⟨e, finding⟩ := finding
      cases finding <;> rfl
    rw [recordAll, recordAll, hrecord]
    cases record project ⟨other, path, lines⟩ s finding with
    | error fault => rfl
    | ok updated => exact ih updated

namespace Kotlin

/-! ## Findings -/

/-- No rule looks at plain nodes. -/
theorem findingsAt_plainNode (site : Site) (h : IsPlainNode site.element) :
    Analysis.findingsAt (Rule.dispatchTable rules) site = [] := by
  have hkinds : ∀ rule ∈ rules, rule.kind ≠ Kind.name .node := by decide
  have hgroup : Rule.groupFor (Rule.dispatchTable rules) site.element = [] := by
    rw [Rule.groupFor_dispatchTable, List.filter_eq_nil_iff]
    intro rule hrule happlies
    rw [Rule.appliesTo, h.1, beq_iff_eq, Tag.name?, Option.some.injEq] at happlies
    exact hkinds rule hrule happlies.symm
  rw [Analysis.findingsAt, hgroup]
  rfl

/-- The rules look at what hangs below an element only to see whether entries are mixed with
other members. -/
theorem findings_congr {rule : Rule} (h : rule ∈ rules) (above : List Element) (e : Element)
    {kids others : Forest Element}
    (hmixed : hasEntriesAndMembersMixed (.node e others) =
      hasEntriesAndMembersMixed (.node e kids)) :
    rule.findings ⟨above, .node e others⟩ = rule.findings ⟨above, .node e kids⟩ := by
  have hclass : classFindings ⟨above, .node e others⟩ = classFindings ⟨above, .node e kids⟩ := by
    simp only [classFindings, enumFindings, hmixed]
    rfl
  simp only [rules, List.mem_cons, List.not_mem_nil, or_false] at h
  rcases h with rfl | rfl | rfl | rfl | rfl | rfl | rfl | rfl | rfl | rfl | rfl | rfl | rfl |
    rfl | rfl | rfl | rfl | rfl | rfl
  -- Only the rule for classes looks further down.
  all_goals first
    | rfl
    | exact hclass

theorem findingsAt_congr (above : List Element) (e : Element) {kids others : Forest Element}
    (h : Tree.Padded IsPlainNode kids others) :
    Analysis.findingsAt (Rule.dispatchTable rules) ⟨above, .node e others⟩ =
      Analysis.findingsAt (Rule.dispatchTable rules) ⟨above, .node e kids⟩ := by
  rw [findingsAt_eq_flatMap, findingsAt_eq_flatMap]
  refine List.flatMap_congr fun rule hrule => ?_
  rw [contribution, contribution,
    findings_congr hrule above e (hasEntriesAndMembersMixed_of_padded h)]
  rfl

/-- Plain leaves change nothing that is found. -/
theorem findings_of_padded {tree padded : ElementTree}
    (h : Tree.Padded IsPlainNode [tree] [padded]) :
    Analysis.findings (Rule.dispatchTable rules) padded =
      Analysis.findings (Rule.dispatchTable rules) tree := by
  have hvisits := h.flatMap_visits
    (fun site : Site => (Analysis.findingsAt (Rule.dispatchTable rules) site).map
      fun finding => (site.element, finding))
    (fun above e hplain => by
      rw [findingsAt_plainNode ⟨above, .node e []⟩ hplain, List.map_nil])
    (fun above e kids others hkids => by rw [findingsAt_congr above e hkids]; rfl) []
  simp only [Tree.forestVisitsBelow, List.append_nil] at hvisits
  rw [Analysis.findings, Analysis.findings, Tree.visits, Tree.visits]
  exact hvisits

/-- Comments never change the statistics: where a parser tree has a normalized tree, the tree with
comments put in has one too, and the analysis of that leaves every session as the analysis of the
other does. -/
theorem analyzeFile_of_comments {tree commented : ParseTree} {made : ElementTree}
    (h : IsCommented tree commented) (hmade : normalize tree = .ok made) :
    ∃ other, normalize commented = .ok other ∧
      ∀ (project : PlaceName) (path : Option String) (lines : LineIndex) (s : Session),
        Analysis.analyzeFile rules project ⟨other, path, lines⟩ s =
          Analysis.analyzeFile rules project ⟨made, path, lines⟩ s := by
  obtain ⟨rfl, hcommented⟩ := normalize_of_comments h hmade
  refine ⟨_, hcommented, fun project path lines s => ?_⟩
  rw [Analysis.analyzeFile, Analysis.analyzeFile]
  rw [findings_of_padded (padded_conversion h), Analysis.recordAll_of_tree _ (conversion [] tree)]

/-- An enum class with an inner class, with comments in its modifiers and in its body. -/
def commentedEnum (inModifiers inBody : Forest Token) : ParseTree :=
  .node ⟨"source_file", 0, 90, true, false, none, []⟩
    [.node ⟨"class_declaration", 0, 90, true, false, none, []⟩
      [.node ⟨"modifiers", 0, 14, true, false, none, []⟩
          (inModifiers ++ [.node ⟨"class_modifier", 10, 14, true, false, none,
            "enum".toUTF8.toList⟩ []]),
        .node ⟨"enum_class_body", 20, 90, true, false, none, []⟩
          (inBody ++ [.node ⟨"enum_entry", 40, 41, true, false, none, []⟩ []] ++ inBody ++
            [.node ⟨"property_declaration", 60, 70, true, false, none, []⟩ [],
              .node ⟨"enum_entry", 80, 81, true, false, none, []⟩ []])]]

/-- A comment on a line. -/
def lineComment : Token :=
  ⟨"line_comment", 30, 33, true, false, none, "//!".toUTF8.toList⟩

/-- A comment that may go over lines. -/
def blockComment : Token :=
  ⟨"multiline_comment", 0, 8, true, false, none, "/*enum*/".toUTF8.toList⟩

/-- Comments in the modifiers and in the body of an enum class with mixed members. -/
theorem analyzeFile_of_comments_enum :
    ∃ made other, IsCommented (commentedEnum [] [])
        (commentedEnum [.node blockComment []] [.node lineComment []]) ∧
      normalize (commentedEnum [] []) = .ok made ∧
      normalize (commentedEnum [.node blockComment []] [.node lineComment []]) = .ok other ∧
      made ≠ other ∧
      Analysis.analyzeFile rules (.text "p") ⟨other, some "A.kt", ⟨#[0]⟩⟩
          (.ofSpecs catalog false) =
        Analysis.analyzeFile rules (.text "p") ⟨made, some "A.kt", ⟨#[0]⟩⟩
          (.ofSpecs catalog false) := by
  have hline : lineComment.IsComment :=
    ⟨by decide, rfl, rfl, by decide +kernel, fun h => by cases h⟩
  have hblock : blockComment.IsComment :=
    ⟨by decide, rfl, rfl, by decide +kernel, fun h => by cases h⟩
  have hcommented : IsCommented (commentedEnum [] [])
      (commentedEnum [.node blockComment []] [.node lineComment []]) := by
    refine ⟨rfl, .node (.node (.leaf hblock (.node .nil .nil)) (.node ?_ .nil)) .nil⟩
    exact .leaf hline (.node .nil (.leaf hline (.node .nil (.node .nil .nil))))
  have hmade : normalize (commentedEnum [] []) = .ok (conversion [] (commentedEnum [] [])) := by
    have hlegal : illegalText? (conversion [] (commentedEnum [] [])).values = none := by
      decide +kernel
    rw [normalize_eq, hlegal]
  obtain ⟨other, hother, hanalyses⟩ := analyzeFile_of_comments hcommented hmade
  refine ⟨_, other, hcommented, hmade, hother, ?_, hanalyses _ _ _ _⟩
  have hotherEq := (normalize_of_comments hcommented hmade).2
  rw [hother] at hotherEq
  rw [Except.ok.inj hotherEq]
  intro hsame
  have hlength := congrArg (·.values.length) hsame
  revert hlength
  decide +kernel

end Kotlin
end FeatureCensus
