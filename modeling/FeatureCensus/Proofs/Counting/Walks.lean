import FeatureCensus.Proofs.Counting.Entries

/-!
# Walks through a tree

A plain walk tries, at each element in document order, all rules in their order, and applies those
that look at elements of that kind.  An analysis looks up the rules of the kind in a table instead.
Whatever the rules do, both do the same, also where one of them fails and ends the walk: what was
done before is left.

Main results:

- Theorem {lit}`Analysis.inTurn_filter`: leaving out what is skipped anyway changes nothing.
- Theorem {lit}`Analysis.walkByTable_dispatchTable`: a walk by the table is the plain walk.
- Theorem {lit}`Analysis.inTurn_findings`: findings are dealt with in a walk by the table.
- Theorem {lit}`Analysis.analyzeFile_walks_plainly`: an analysis is a plain walk.
-/

namespace FeatureCensus
namespace Analysis

open Syntax

variable {α β σ ε : Type}

/-! ## Actions in turn -/

/-- The state after actions on items in turn, and the failure of the first one that fails, which
ends them. -/
def inTurn (act : α → σ → σ × Option ε) : σ → List α → σ × Option ε
  | s, [] => (s, none)
  | s, a :: rest =>
    match act a s with
    | (t, some e) => (t, some e)
    | (t, none) => inTurn act t rest

variable {act : α → σ → σ × Option ε}

theorem inTurn_cons_of_some {a : α} {s t : σ} {e : ε} (h : act a s = (t, some e))
    (rest : List α) : inTurn act s (a :: rest) = (t, some e) := by
  rw [inTurn, h]

theorem inTurn_cons_of_none {a : α} {s t : σ} (h : act a s = (t, none)) (rest : List α) :
    inTurn act s (a :: rest) = inTurn act t rest := by
  rw [inTurn, h]

/-- Items that are done with in two parts: the second part is not begun after a failure. -/
theorem inTurn_append (s : σ) (first second : List α) :
    inTurn act s (first ++ second) =
      match inTurn act s first with
      | (t, some e) => (t, some e)
      | (t, none) => inTurn act t second := by
  induction first generalizing s with
  | nil => rfl
  | cons a rest ih =>
    rcases hact : act a s with ⟨t, failure?⟩
    cases failure? with
    | some e => rw [List.cons_append, inTurn_cons_of_some hact, inTurn_cons_of_some hact]
    | none => rw [List.cons_append, inTurn_cons_of_none hact, inTurn_cons_of_none hact, ih]

/-- The items of parts are done with part by part. -/
theorem inTurn_flatMap (f : β → List α) (s : σ) (items : List β) :
    inTurn act s (items.flatMap f) = inTurn (fun b t => inTurn act t (f b)) s items := by
  induction items generalizing s with
  | nil => rfl
  | cons b rest ih =>
    rw [List.flatMap_cons, inTurn_append, inTurn]
    split
    · rfl
    · exact ih _

/-- To skip items is to leave them out. -/
theorem inTurn_filter (p : α → Bool) (s : σ) (items : List α) :
    inTurn act s (items.filter p) =
      inTurn (fun a t => if p a then act a t else (t, none)) s items := by
  induction items generalizing s with
  | nil => rfl
  | cons a rest ih =>
    by_cases h : p a = true
    · rw [List.filter_cons_of_pos h, inTurn, inTurn, if_pos h]
      split
      · rfl
      · exact ih _
    · rw [List.filter_cons_of_neg h, inTurn, if_neg h]
      exact ih s

/-! ## Walks -/

/-- What a rule does at an element. -/
abbrev RuleAction (σ ε : Type) := Rule → Site → σ → σ × Option ε

/-- Tries all rules at an element, one after the other, and skips those of other kinds. -/
def tryRules (act : RuleAction σ ε) (rules : List Rule) (site : Site) (s : σ) : σ × Option ε :=
  inTurn (fun rule t => if rule.appliesTo site.element then act rule site t else (t, none)) s rules

/-- Tries all rules at each element of a tree in document order. -/
def walkPlainly (act : RuleAction σ ε) (rules : List Rule) (tree : ElementTree) (s : σ) :
    σ × Option ε :=
  inTurn (tryRules act rules) s tree.visits

/-- Applies the rules that a table has for an element. -/
def applyGroup (act : RuleAction σ ε) (table : Rule.Table) (site : Site) (s : σ) :
    σ × Option ε :=
  inTurn (fun rule => act rule site) s (Rule.groupFor table site.element)

/-- Applies the rules of a table at each element of a tree in document order. -/
def walkByTable (act : RuleAction σ ε) (table : Rule.Table) (tree : ElementTree) (s : σ) :
    σ × Option ε :=
  inTurn (applyGroup act table) s tree.visits

/-- The table has just those rules for an element that are not skipped. -/
theorem applyGroup_dispatchTable (act : RuleAction σ ε) (rules : List Rule) :
    applyGroup act (Rule.dispatchTable rules) = tryRules act rules := by
  funext site s
  rw [applyGroup, Rule.groupFor_dispatchTable, inTurn_filter, tryRules]

/-- A walk by the table is the plain walk, whatever the rules do. -/
theorem walkByTable_dispatchTable (act : RuleAction σ ε) (rules : List Rule) (tree : ElementTree)
    (s : σ) :
    walkByTable act (Rule.dispatchTable rules) tree s = walkPlainly act rules tree s := by
  rw [walkByTable, applyGroup_dispatchTable, walkPlainly]

/-- No rule is applied at an element of a kind that none looks at. -/
theorem tryRules_of_unknown {rules : List Rule} {site : Site}
    (h : ∀ rule ∈ rules, site.element.tag.name? ≠ some rule.kind) (act : RuleAction σ ε) (s : σ) :
    tryRules act rules site s = (s, none) := by
  have hnone : rules.filter (·.appliesTo site.element) = [] := by
    rw [List.filter_eq_nil_iff]
    intro rule hrule happlies
    exact h rule hrule (eq_of_beq happlies)
  rw [tryRules, ← inTurn_filter, hnone]
  rfl

/-! ## Findings in a walk -/

/-- The rule action that deals with the findings of the rule at the element in turn. -/
def withFindings (deal : Element × Finding → σ → σ × Option ε) : RuleAction σ ε :=
  fun rule site s => inTurn deal s ((rule.findings site).map fun finding => (site.element, finding))

/-- The findings of a table are dealt with in a walk by it. -/
theorem inTurn_findings (deal : Element × Finding → σ → σ × Option ε) (table : Rule.Table)
    (tree : ElementTree) (s : σ) :
    inTurn deal s (findings table tree) = walkByTable (withFindings deal) table tree s := by
  rw [findings, inTurn_flatMap, walkByTable]
  congr 1
  funext site t
  rw [findingsAt, List.map_flatMap, inTurn_flatMap]
  rfl

/-- Records a finding in a session, which stays as it is if that fails. -/
def recordIn (project : PlaceName) (file : ParsedFile) (finding : Element × Finding)
    (s : Session) : Session × Option Fault :=
  match record project file s finding with
  | .ok updated => (updated, none)
  | .error fault => (s, some fault)

theorem recordAll_eq_inTurn (project : PlaceName) (file : ParsedFile) (s : Session)
    (findings : List (Element × Finding)) :
    recordAll project file s findings = inTurn (recordIn project file) s findings := by
  induction findings generalizing s with
  | nil => rfl
  | cons finding rest ih =>
    rw [recordAll]
    cases h : record project file s finding with
    | error fault =>
      have hfails : recordIn project file finding s = (s, some fault) := by rw [recordIn, h]
      rw [inTurn_cons_of_some hfails]
    | ok updated =>
      have hdone : recordIn project file finding s = (updated, none) := by rw [recordIn, h]
      rw [inTurn_cons_of_none hdone]
      exact ih updated

/-- Adds the entry that a finding makes to a journal of entries. -/
def enterIn (keys : List String) (project : PlaceName) (file : ParsedFile)
    (finding : Element × Finding) (journal : List Entry) : List Entry × Option Fault :=
  match entryOf keys project file finding with
  | .ok entry => (journal ++ [entry], none)
  | .error fault => (journal, some fault)

/-- The journal of findings holds their entries up to the first fault. -/
theorem inTurn_enterIn (keys : List String) (project : PlaceName) (file : ParsedFile)
    (journal : List Entry) (findings : List (Element × Finding)) :
    inTurn (enterIn keys project file) journal findings =
      (journal ++ entriesOf keys project file findings, faultOf? keys project file findings) := by
  induction findings generalizing journal with
  | nil => simp [inTurn, entriesOf, faultOf?]
  | cons finding rest ih =>
    rw [entriesOf, faultOf?]
    cases h : entryOf keys project file finding with
    | error fault =>
      have hfails : enterIn keys project file finding journal = (journal, some fault) := by
        rw [enterIn, h]
      rw [inTurn_cons_of_some hfails]
      simp
    | ok entry =>
      have hdone : enterIn keys project file finding journal = (journal ++ [entry], none) := by
        rw [enterIn, h]
      rw [inTurn_cons_of_none hdone, ih]
      simp

/-! ## Analyses -/

/-- An analysis does what a plain walk does that tries all rules at each element: it leaves the
same session and the same fault, and it makes the same entries in the same order.  So does every
walk by the table of the rules, whatever these do, and at a comment or an element of a kind that no
rule looks at nothing is done. -/
theorem analyzeFile_walks_plainly (rules : List Rule) (project : PlaceName) (file : ParsedFile)
    (s : Session) :
    analyzeFile rules project file s =
        walkPlainly (withFindings (recordIn project file)) rules file.tree
          (s.addTotals 0 1 file.lines.lineCount) ∧
      (∀ keys, (Task.entries rules keys ⟨project, file⟩, Task.fault? rules keys ⟨project, file⟩) =
        walkPlainly (withFindings (enterIn keys project file)) rules file.tree []) ∧
      (∀ {σ ε : Type} (act : RuleAction σ ε) (t : σ),
        walkByTable act (Rule.dispatchTable rules) file.tree t =
          walkPlainly act rules file.tree t) ∧
      ∀ site : Site,
        (site.element.tag = .comment ∨ ∀ rule ∈ rules, site.element.tag.name? ≠ some rule.kind) →
        ∀ {σ ε : Type} (act : RuleAction σ ε) (t : σ), tryRules act rules site t = (t, none) := by
  refine ⟨?_, fun keys => ?_, fun act t => ?_, fun site hunknown _ _ act t => ?_⟩
  · rw [analyzeFile, recordAll_eq_inTurn, inTurn_findings, walkByTable_dispatchTable]
  · have hentered := inTurn_enterIn keys project file []
      (findings (Rule.dispatchTable rules) file.tree)
    rw [inTurn_findings, walkByTable_dispatchTable, List.nil_append] at hentered
    exact hentered.symm
  · exact walkByTable_dispatchTable act rules file.tree t
  · refine tryRules_of_unknown (fun rule hrule => ?_) act t
    rcases hunknown with hcomment | hother
    · rw [hcomment]
      exact Option.some_ne_none rule.kind |>.symm
    · exact hother rule hrule

/-- Rules for classes with a rule for files between them, of which the second one fails. -/
def interleavedRules : List Rule :=
  [.counting "first" Kind.classDeclaration.name ["kept"], .counting "files" Kind.file.name ["kept"],
    .counting "second" Kind.classDeclaration.name ["passing", "unknown"],
    .counting "third" Kind.classDeclaration.name ["kept"]]

/-- A file with a comment, an element that no rule looks at, and a class. -/
def commentedFile : ParsedFile where
  tree := .node ⟨.known .file, []⟩
    [.node ⟨.comment, []⟩ [], .node ⟨.unknown "mystery", []⟩ [],
      .node ⟨.known .classDeclaration, [("start", "4")]⟩ []]
  path := some "A.kt"
  lines := ⟨#[0, 3]⟩

/-- Nothing is done at the comment, and at the class two entries are made before the fault. -/
theorem analyzeFile_walks_plainly_commentedFile :
    let s := Session.ofSpecs smallCatalog false
    let act := withFindings (recordIn (.text "p") commentedFile)
    (analyzeFile interleavedRules (.text "p") commentedFile s).2 =
        some (.unknownCounter "unknown") ∧
      analyzeFile interleavedRules (.text "p") commentedFile s =
        walkPlainly act interleavedRules commentedFile.tree (s.addTotals 0 1 2) ∧
      ((walkPlainly (withFindings (enterIn smallCatalog.keys (.text "p") commentedFile))
        interleavedRules commentedFile.tree []).1.map fun entry => (entry.key, entry.place.line)) =
          [("kept", 1), ("kept", 2), ("passing", 2)] ∧
      tryRules act interleavedRules ⟨[⟨.known .file, []⟩], .node ⟨.comment, []⟩ []⟩ s =
        (s, none) := by
  obtain ⟨hplain, hentries, -, hnothing⟩ := analyzeFile_walks_plainly interleavedRules (.text "p")
    commentedFile (Session.ofSpecs smallCatalog false)
  refine ⟨by decide +kernel, hplain, ?_, hnothing _ (Or.inl rfl) _ _⟩
  rw [← hentries]
  decide +kernel

end Analysis
end FeatureCensus
