import FeatureCensus.Proofs.Counting.ParserTrees

/-!
# Counting labels and jumps

The word that a labelled jump out of a loop begins with is itself a node of the type of labels,
which is read as a keyword by its text, and the label that the jump goes to is the first identifier
that begins where that node ends or later.  A labelled return has a marker of a type of its own.  So
of a jump and of the keyword in it, both of which are visited, only the jump is counted, and it is
counted if it goes to a label.

Main results:

- Theorem {lit}`Syntax.Spot.reading`: how nodes are read as labels and jumps.
- Theorem {lit}`Kotlin.occursAt_jumps`: what the counters count at a node.
- Theorem {lit}`Kotlin.countP_jumps`: at most one of the three counters counts a node.
- Theorem {lit}`Kotlin.analyzeFile_counts_jumps`: what the three counters count in a parser tree.
-/

namespace FeatureCensus

open Syntax Text

namespace Syntax

/-! ## The kinds of labels and jumps -/

section

variable (above : List String) {token : Token} (children : Forest Token)

theorem classify_of_construct? {type : String} (htype : token.type = type)
    (hmissing : token.missing = false) (herror : type ≠ "ERROR")
    (hsimple : simpleKinds.lookup type = none) :
    classify above token children =
      (construct? above token children).getD ⟨.known .node, [("type", type)]⟩ := by
  subst htype
  rw [classify, if_neg (by simp [herror, hmissing]), hsimple]

theorem classify_label (htype : token.type = "label") (hmissing : token.missing = false) :
    classify above token children =
      if isLabelText token.shown then ⟨.known .label, []⟩
      else ⟨.known .node, [("type", "label")]⟩ := by
  rw [classify_of_construct? above children htype hmissing (by decide) rfl]
  cases hlabel : isLabelText token.shown <;> simp [construct?, htype, hlabel]

theorem classify_labeledExpression (htype : token.type = "labeled_expression")
    (hmissing : token.missing = false) :
    classify above token children =
      match labeledJump? children with
      | some attributes => ⟨.known .jump, attributes⟩
      | none => ⟨.known .node, [("type", "labeled_expression")]⟩ := by
  rw [classify_of_construct? above children htype hmissing (by decide) rfl]
  cases hjump : labeledJump? children <;> simp [construct?, htype, hjump]

theorem classify_returnExpression (htype : token.type = "return_expression")
    (hmissing : token.missing = false) :
    classify above token children =
      ⟨.known .jump, jumpAttributes "return" (returnTarget children)⟩ := by
  rw [classify_of_construct? above children htype hmissing (by decide) rfl]
  simp [construct?, htype]

/-- No label and no jump is made of a node of another type. -/
theorem isOf_classify_of_other {kind : Kind} (hkind : kind = .label ∨ kind = .jump)
    (htype : token.type ∉ ["label", "labeled_expression", "return_expression"]) :
    (classify above token children).isOf kind = false := by
  simp only [List.mem_cons, List.not_mem_nil, or_false, not_or] at htype
  obtain ⟨hlabel, hlabeled, hreturn⟩ := htype
  rw [classify]
  split
  · rw [Element.isOf_known]
    rcases hkind with rfl | rfl <;> rfl
  · cases hsimple : simpleKinds.lookup token.type with
    | some decided =>
      have hno : ∀ entry ∈ simpleKinds, entry.2 ≠ .label ∧ entry.2 ≠ .jump := by decide
      have hdecided := hno _ (Association.mem_of_lookup hsimple)
      rw [Element.isOf_known, decide_eq_false_iff_not]
      rcases hkind with rfl | rfl
      · exact hdecided.1
      · exact hdecided.2
    | none =>
      dsimp only
      unfold construct?
      split
      case h_7 htype => exact absurd htype hlabel
      case h_8 htype => exact absurd htype hlabeled
      case h_9 htype => exact absurd htype hreturn
      case h_16 => split <;> rcases hkind with rfl | rfl <;> rfl
      all_goals rcases hkind with rfl | rfl <;> rfl

end

/-! ## Labels and jumps in the parser tree -/

/-- The texts of the labels that are the keywords of jumps. -/
def jumpKeywords : List String := ["break@", "continue@"]

/-- Whether the first named identifier among some nodes that begins where a marker ends or later is
there and has a text. -/
def namesTarget (marker : ParseTree) (children : Forest Token) : Bool :=
  ((namedChildren children).find? fun child =>
    identifierTypes.contains child.value.type && marker.value.stop ≤ child.value.start).any
      (·.value.shown != "")

/-- The first label among some nodes, if it is the keyword of a jump. -/
def loopMarker? (children : Forest Token) : Option ParseTree :=
  (childOfType? ["label"] children).filter fun label => jumpKeywords.contains label.value.shown

namespace Spot

/-- Labels: their text ends with the sign of a label, and is not the keyword of a jump. -/
def isLabel (p : Spot) : Bool :=
  p.isA ["label"] && p.here.value.shown.toList.getLast? == some '@' &&
    !jumpKeywords.contains p.here.value.shown

/-- Jumps out of a loop that go to a label. -/
def isQualifiedJump (p : Spot) : Bool :=
  p.isA ["labeled_expression"] &&
    (loopMarker? p.here.children).any (namesTarget · p.here.children)

/-- Returns that go to a label. -/
def isLabelledReturn (p : Spot) : Bool :=
  p.isA ["return_expression"] &&
    (childOfType? ["return@"] p.here.children).any (namesTarget · p.here.children)

/-- Jumps that go to a label. -/
def isLabelledJump (p : Spot) : Bool :=
  p.isQualifiedJump || p.isLabelledReturn

/-- Jumps: the expressions whose first label is the keyword of one, and the returns. -/
def isJump (p : Spot) : Bool :=
  (p.isA ["labeled_expression"] && (loopMarker? p.here.children).isSome) ||
    p.isA ["return_expression"]

/-- Labels that are the keywords of jumps. -/
def isKeyword (p : Spot) : Bool :=
  p.isA ["label"] && jumpKeywords.contains p.here.value.shown

end Spot

theorem lookup_jumpLabels_eq_none_iff (text : String) :
    jumpLabels.lookup text = none ↔ text ∉ jumpKeywords := by
  simp [jumpLabels, jumpKeywords, List.lookup_eq_none_iff]

theorem isLabelText_eq (text : String) :
    isLabelText text = (text.toList.getLast? == some '@' && !jumpKeywords.contains text) := by
  rw [isLabelText]
  congr 1
  rw [Bool.eq_iff_iff, Option.isNone_iff_eq_none, lookup_jumpLabels_eq_none_iff,
    Bool.not_eq_true', ← Bool.not_eq_true, List.contains_iff_mem]

/-- A jump goes to a text that is not empty if a target is named. -/
theorem jumpTarget_ne_iff (marker : ParseTree) (children : Forest Token) :
    (jumpTarget marker.value children != "") = namesTarget marker children := by
  have hfind : ((namedChildren children).find? fun child =>
        marker.value.stop ≤ child.value.start && identifierTypes.contains child.value.type) =
      (namedChildren children).find? fun child =>
        identifierTypes.contains child.value.type && marker.value.stop ≤ child.value.start := by
    congr 1
    funext child
    exact Bool.and_comm _ _
  rw [jumpTarget, namesTarget, hfind]
  cases (namedChildren children).find? fun child =>
      identifierTypes.contains child.value.type && marker.value.stop ≤ child.value.start with
  | none => rfl
  | some target => rfl

theorem loopMarker?_eq_some {children : Forest Token} {marker : ParseTree}
    (h : loopMarker? children = some marker) :
    ∃ keyword ∈ ["break", "continue"],
      labeledJump? children = some (jumpAttributes keyword (jumpTarget marker.value children)) := by
  rw [loopMarker?, Option.filter_eq_some_iff] at h
  obtain ⟨hmarker, hkeyword⟩ := h
  have hlookup : ∀ text ∈ jumpKeywords,
      ∃ keyword ∈ ["break", "continue"], jumpLabels.lookup text = some keyword := by decide
  obtain ⟨keyword, hmem, hlookup⟩ := hlookup _ (List.contains_iff_mem.mp hkeyword)
  refine ⟨keyword, hmem, ?_⟩
  simp only [labeledJump?, hmarker, hlookup, Option.bind_eq_bind, Option.bind_some]
  rfl

theorem loopMarker?_eq_none {children : Forest Token} (h : loopMarker? children = none) :
    labeledJump? children = none := by
  cases hmarker : childOfType? ["label"] children with
  | none => rw [labeledJump?, hmarker]; rfl
  | some marker =>
    rw [loopMarker?, hmarker, Option.filter_some] at h
    have hkeyword : marker.value.shown ∉ jumpKeywords := by
      intro hmem
      rw [if_pos (List.contains_iff_mem.mpr hmem)] at h
      cases h
    have hlookup := (lookup_jumpLabels_eq_none_iff _).mpr hkeyword
    simp only [labeledJump?, hmarker, hlookup, Option.bind_eq_bind, Option.bind_some,
      Option.bind_none]

namespace Spot

theorem isA_singleton_iff {type : String} {p : Spot} :
    p.isA [type] = true ↔ p.here.value.type = type ∧ p.here.value.missing = false := by
  simp [isA]

/-- A node is of one type. -/
theorem isA_of_ne {type other : String} {p : Spot} (h : p.isA [type] = true) (hne : type ≠ other) :
    p.isA [other] = false := by
  rw [Bool.eq_false_iff]
  intro hother
  exact hne ((isA_singleton_iff.mp h).1.symm.trans (isA_singleton_iff.mp hother).1)

theorem isA_of_isLabel {p : Spot} (h : p.isLabel = true) : p.isA ["label"] = true := by
  rw [isLabel, Bool.and_eq_true, Bool.and_eq_true] at h
  exact h.1.1

theorem isA_of_isQualifiedJump {p : Spot} (h : p.isQualifiedJump = true) :
    p.isA ["labeled_expression"] = true :=
  (Bool.and_eq_true_iff.mp h).1

theorem isA_of_isLabelledReturn {p : Spot} (h : p.isLabelledReturn = true) :
    p.isA ["return_expression"] = true :=
  (Bool.and_eq_true_iff.mp h).1

/-- What is no jump goes to no label. -/
theorem not_labelled_of_not_isJump {p : Spot} (h : p.isJump = false) :
    p.isQualifiedJump = false ∧ p.isLabelledReturn = false := by
  rw [isJump, Bool.or_eq_false_iff] at h
  obtain ⟨hloop, hreturn⟩ := h
  constructor
  · rw [isQualifiedJump]
    cases hmarker : loopMarker? p.here.children with
    | none => exact Bool.and_false _
    | some marker =>
      rw [hmarker, Option.isSome_some, Bool.and_true] at hloop
      rw [hloop, Bool.false_and]
  · rw [isLabelledReturn, hreturn, Bool.false_and]

/-- How a node is read as far as labels and jumps are concerned. -/
inductive Reading (p : Spot) : Prop where
  /-- The node is of the type of labels, and no jump. -/
  | label (here : p.isA ["label"] = true)
    (made : classify p.typesAbove p.here.value p.here.children =
      if isLabelText p.here.value.shown then ⟨.known .label, []⟩
      else ⟨.known .node, [("type", "label")]⟩)
  /-- The node is a jump out of a loop with its keyword. -/
  | loop {marker : ParseTree} {keyword : String} (here : p.isA ["labeled_expression"] = true)
    (marked : loopMarker? p.here.children = some marker)
    (known : keyword ∈ ["break", "continue"])
    (made : classify p.typesAbove p.here.value p.here.children =
      ⟨.known .jump, jumpAttributes keyword (jumpTarget marker.value p.here.children)⟩)
  /-- The node is a return. -/
  | back (here : p.isA ["return_expression"] = true)
    (made : classify p.typesAbove p.here.value p.here.children =
      ⟨.known .jump, jumpAttributes "return" (returnTarget p.here.children)⟩)
  /-- The node is neither. -/
  | neither (kinds : ∀ kind, kind = .label ∨ kind = .jump → p.element.isOf kind = false)
    (label : p.isA ["label"] = false) (jump : p.isJump = false)

theorem isOf_element_eq (p : Spot) (kind : Kind) :
    p.element.isOf kind = (classify p.typesAbove p.here.value p.here.children).isOf kind := rfl

/-- Every node is read in one of the ways. -/
theorem reading (p : Spot) : p.Reading := by
  cases hmissing : p.here.value.missing with
  | true =>
    refine .neither ?_ (by simp [isA, hmissing]) (by simp [isJump, isA, hmissing])
    intro kind hkind
    rw [isOf_element_eq, classify_of_missing hmissing, Element.isOf_known]
    rcases hkind with rfl | rfl <;> rfl
  | false =>
    by_cases hlabel : p.here.value.type = "label"
    · exact .label (isA_singleton_iff.mpr ⟨hlabel, hmissing⟩) (classify_label _ _ hlabel hmissing)
    by_cases hreturn : p.here.value.type = "return_expression"
    · exact .back (isA_singleton_iff.mpr ⟨hreturn, hmissing⟩)
        (classify_returnExpression _ _ hreturn hmissing)
    by_cases hlabeled : p.here.value.type = "labeled_expression"
    · have hmade := classify_labeledExpression p.typesAbove p.here.children hlabeled hmissing
      cases hmarker : loopMarker? p.here.children with
      | none =>
        refine .neither ?_ (by simp [isA, hlabel]) (by simp [isJump, isA, hmarker, hreturn])
        intro kind hkind
        rw [isOf_element_eq, hmade, loopMarker?_eq_none hmarker]
        rcases hkind with rfl | rfl <;> rfl
      | some marker =>
        obtain ⟨keyword, hknown, hjump⟩ := loopMarker?_eq_some hmarker
        rw [hjump] at hmade
        exact .loop (isA_singleton_iff.mpr ⟨hlabeled, hmissing⟩) hmarker hknown hmade
    · refine .neither ?_ (by simp [isA, hlabel]) (by simp [isJump, isA, hlabeled, hreturn])
      intro kind hkind
      exact isOf_classify_of_other _ _ hkind (by simp [hlabel, hlabeled, hreturn])

/-- Labels are made of the nodes that are labels. -/
theorem isOf_label_element (p : Spot) : p.element.isOf .label = p.isLabel := by
  rw [isOf_element_eq, isLabel]
  cases p.reading with
  | label here made =>
    rw [made, here, Bool.true_and, ← isLabelText_eq]
    cases isLabelText p.here.value.shown <;> rfl
  | loop here _ _ made => rw [made, isA_of_ne here (by decide)]; rfl
  | back here made => rw [made, isA_of_ne here (by decide)]; rfl
  | neither kinds label => rw [← isOf_element_eq, kinds _ (.inl rfl), label]; rfl

end Spot
end Syntax

namespace Kotlin

/-- The counters of labels and labelled jumps, with the conditions on the nodes that they count. -/
def jumpCounters : List (String × (Spot → Bool)) :=
  [("labeled_expressions", Spot.isLabel),
    ("qualified_break_continue", Spot.isQualifiedJump),
    ("return_with_label", Spot.isLabelledReturn)]

theorem labeledExpressions_image (p : Spot) :
    occursAt "labeled_expressions" p.image = p.isLabel := by
  have hmem : ⟨"labeled_expressions", .label, always⟩ ∈ features := by simp [features, tests]
  rw [occursAt_key hmem, Feature.occursAt, element_image, Spot.isOf_label_element]
  exact Bool.and_true _

section

variable {key : String} {keywords : List String} {p : Spot}

/-- What counts jumps with some keywords counts no other nodes. -/
theorem occursAt_of_not_jump (hmem : ⟨key, .jump, fun site =>
      isGiven "target" site && hasAmong "keyword" keywords site⟩ ∈ features)
    (h : p.element.isOf .jump = false) : occursAt key p.image = false := by
  rw [occursAt_key hmem, Feature.occursAt, element_image, h, Bool.false_and]

/-- What counts jumps with some keywords counts those that go to a label. -/
theorem occursAt_of_jump (hmem : ⟨key, .jump, fun site =>
      isGiven "target" site && hasAmong "keyword" keywords site⟩ ∈ features)
    {keyword target : String}
    (h : classify p.typesAbove p.here.value p.here.children =
      ⟨.known .jump, jumpAttributes keyword target⟩) :
    occursAt key p.image = (target != "" && keywords.contains keyword) := by
  have hkind : p.element.isOf .jump = true := by rw [Spot.isOf_element_eq, h]; rfl
  have hattribute : ∀ name, name ≠ "start" → name ≠ "end" →
      p.element.attribute? name = (jumpAttributes keyword target).lookup name := by
    intro name hstart hend
    rw [Spot.element, attribute?_placedElement hstart hend, h]
  have htarget : p.element.attribute? "target" = some target :=
    hattribute "target" (by decide) (by decide)
  have hkeyword : p.element.attribute? "keyword" = some keyword :=
    hattribute "keyword" (by decide) (by decide)
  have hgiven : isGiven "target" p.image = (target != "") := by
    rw [isGiven, element_image, htarget, Option.getD_some]
  have hamong : hasAmong "keyword" keywords p.image = keywords.contains keyword := by
    rw [hasAmong, element_image, hkeyword, Bool.eq_iff_iff, List.any_eq_true, List.contains_iff_mem]
    constructor
    · rintro ⟨value, hvalue, hsame⟩
      rwa [Option.some.inj (eq_of_beq hsame)]
    · intro hknown
      exact ⟨keyword, hknown, BEq.rfl⟩
  rw [occursAt_key hmem, Feature.occursAt, element_image, hkind, Bool.true_and]
  dsimp only
  rw [hgiven, hamong]

end

theorem qualifiedJumps_image (p : Spot) :
    occursAt "qualified_break_continue" p.image = p.isQualifiedJump := by
  have hmem : ⟨"qualified_break_continue", .jump, fun site =>
      isGiven "target" site && hasAmong "keyword" ["break", "continue"] site⟩ ∈ features := by
    simp [features, tests, jumpTests]
  rw [Spot.isQualifiedJump]
  cases p.reading with
  | label here made =>
    have hkind : p.element.isOf .jump = false := by
      rw [Spot.isOf_element_eq, made]
      split <;> rfl
    rw [occursAt_of_not_jump hmem hkind, Spot.isA_of_ne here (by decide), Bool.false_and]
  | loop here marked known made =>
    rw [occursAt_of_jump hmem made, here, marked, List.contains_iff_mem.mpr known,
      jumpTarget_ne_iff, Bool.and_true, Bool.true_and, Option.any_some]
  | back here made =>
    rw [occursAt_of_jump hmem made, Spot.isA_of_ne here (by decide), Bool.false_and]
    exact Bool.and_false _
  | neither kinds _ jump =>
    rw [occursAt_of_not_jump hmem (kinds _ (.inr rfl))]
    exact (Spot.not_labelled_of_not_isJump jump).1.symm

theorem labelledReturns_image (p : Spot) :
    occursAt "return_with_label" p.image = p.isLabelledReturn := by
  have hmem : ⟨"return_with_label", .jump, fun site =>
      isGiven "target" site && hasAmong "keyword" ["return"] site⟩ ∈ features := by
    simp [features, tests, jumpTests]
  rw [Spot.isLabelledReturn]
  cases p.reading with
  | label here made =>
    have hkind : p.element.isOf .jump = false := by
      rw [Spot.isOf_element_eq, made]
      split <;> rfl
    rw [occursAt_of_not_jump hmem hkind, Spot.isA_of_ne here (by decide), Bool.false_and]
  | loop here marked known made =>
    have hother : ∀ keyword ∈ ["break", "continue"], ["return"].contains keyword = false := by
      decide
    rw [occursAt_of_jump hmem made, hother _ known, Spot.isA_of_ne here (by decide),
      Bool.false_and, Bool.and_false]
  | back here made =>
    have hreturn : ["return"].contains "return" = true := by decide
    rw [occursAt_of_jump hmem made, here, hreturn, Bool.and_true, Bool.true_and]
    unfold returnTarget
    cases childOfType? ["return@"] p.here.children with
    | none => rfl
    | some marker => exact jumpTarget_ne_iff marker p.here.children
  | neither kinds _ jump =>
    rw [occursAt_of_not_jump hmem (kinds _ (.inr rfl))]
    exact (Spot.not_labelled_of_not_isJump jump).2.symm

theorem occursAt_jumps (p : Spot) {entry : String × (Spot → Bool)} (hentry : entry ∈ jumpCounters) :
    occursAt entry.1 p.image = entry.2 p := by
  simp only [jumpCounters, List.mem_cons, List.not_mem_nil, or_false] at hentry
  rcases hentry with rfl | rfl | rfl
  · exact labeledExpressions_image p
  · exact qualifiedJumps_image p
  · exact labelledReturns_image p

/-! ### Counting -/

/-- What the counters count is of one type, and that is no wrapper. -/
theorem exists_isA_of_jumps {p : Spot} {entry : String × (Spot → Bool)}
    (hentry : entry ∈ jumpCounters) (h : entry.2 p = true) :
    ∃ type ∈ ["label", "labeled_expression", "return_expression"], p.isA [type] = true := by
  simp only [jumpCounters, List.mem_cons, List.not_mem_nil, or_false] at hentry
  rcases hentry with rfl | rfl | rfl
  · exact ⟨"label", by decide, Spot.isA_of_isLabel h⟩
  · exact ⟨"labeled_expression", by decide, Spot.isA_of_isQualifiedJump h⟩
  · exact ⟨"return_expression", by decide, Spot.isA_of_isLabelledReturn h⟩

/-- The counters count visible nodes, and these are the reached ones among what they count. -/
theorem countP_visibleSpots_jumps (tree : ParseTree) {entry : String × (Spot → Bool)}
    (hentry : entry ∈ jumpCounters) :
    (visibleSpots tree).countP entry.2 =
      tree.positions.countP fun p => p.isReached && entry.2 p := by
  rw [visibleSpots, List.countP_filter]
  refine List.countP_congr fun p _ => ?_
  rw [Bool.and_eq_true, Bool.and_eq_true, Spot.isVisible, Bool.and_eq_true]
  constructor
  · rintro ⟨hcounted, hreached, -⟩
    exact ⟨hreached, hcounted⟩
  · rintro ⟨hreached, hcounted⟩
    have hplain : p.isPlain = true := by
      have hno : ∀ type ∈ ["label", "labeled_expression", "return_expression"],
          wrapperTypes.contains type = false := by decide
      obtain ⟨type, hmem, hhere⟩ := exists_isA_of_jumps hentry hcounted
      rw [Spot.isPlain, Token.isWrapper, (Spot.isA_singleton_iff.mp hhere).1, hno type hmem,
        Bool.not_false, Bool.or_true]
    exact ⟨hcounted, hreached, hplain⟩

/-- Of a label and a labelled jump one counter counts each, and none of them counts anything
else. -/
theorem countP_jumps (p : Spot) :
    jumpCounters.countP (fun entry => entry.2 p) =
      if p.isLabel || p.isLabelledJump then 1 else 0 := by
  have hlabel : p.isLabel = true → p.isQualifiedJump = false ∧ p.isLabelledReturn = false := by
    intro h
    have hhere := Spot.isA_of_isLabel h
    rw [Spot.isQualifiedJump, Spot.isLabelledReturn, Spot.isA_of_ne hhere (by decide),
      Spot.isA_of_ne hhere (by decide)]
    exact ⟨rfl, rfl⟩
  have hloop : p.isQualifiedJump = true → p.isLabelledReturn = false := by
    intro h
    rw [Spot.isLabelledReturn, Spot.isA_of_ne (Spot.isA_of_isQualifiedJump h) (by decide),
      Bool.false_and]
  rw [Spot.isLabelledJump, jumpCounters]
  by_cases hl : p.isLabel = true
  · obtain ⟨hqualified, hreturn⟩ := hlabel hl
    simp [hl, hqualified, hreturn]
  · by_cases hq : p.isQualifiedJump = true
    · simp [hl, hq, hloop hq]
    · simp [hl, hq]

/-- A jump is counted once if it goes to a label, and otherwise it is not. -/
theorem countP_jumps_of_isJump {p : Spot} (h : p.isJump = true) :
    jumpCounters.countP (fun entry => entry.2 p) = if p.isLabelledJump then 1 else 0 := by
  have hlabel : p.isLabel = false := by
    rw [Spot.isLabel]
    rw [Spot.isJump, Bool.or_eq_true, Bool.and_eq_true] at h
    rcases h with ⟨hloop, -⟩ | hreturn
    · rw [Spot.isA_of_ne hloop (by decide), Bool.false_and, Bool.false_and]
    · rw [Spot.isA_of_ne hreturn (by decide), Bool.false_and, Bool.false_and]
  rw [countP_jumps, hlabel, Bool.false_or]

/-- The keyword of a jump is not counted. -/
theorem countP_jumps_of_isKeyword {p : Spot} (h : p.isKeyword = true) :
    jumpCounters.countP (fun entry => entry.2 p) = 0 := by
  rw [Spot.isKeyword, Bool.and_eq_true] at h
  obtain ⟨hhere, hkeyword⟩ := h
  have hlabel : p.isLabel = false := by
    rw [Spot.isLabel, hkeyword, Bool.not_true, Bool.and_false]
  have hjump : p.isLabelledJump = false := by
    rw [Spot.isLabelledJump, Spot.isQualifiedJump, Spot.isLabelledReturn,
      Spot.isA_of_ne hhere (by decide), Spot.isA_of_ne hhere (by decide)]
    rfl
  rw [countP_jumps, hlabel, hjump]
  rfl

/-- The analysis of the normalized tree of a parser tree adds to the counters of labels and labelled
jumps the numbers of reached nodes of the parser tree that are such.  The keyword of a jump is no
label, and of the counters one counts a jump that goes to a label and none another jump. -/
theorem analyzeFile_counts_jumps (project : PlaceName) {tree : ParseTree} {file : ParsedFile}
    {s : Session} (hkeys : s.keys = catalog.keys) (hfile : normalize tree = .ok file.tree)
    (h : IsMeasurable tree) :
    (∃ t, Analysis.analyzeFile rules project file s = (t, none) ∧
      ∀ entry ∈ jumpCounters, ∃ before after,
        s.counter? entry.1 = some before ∧ t.counter? entry.1 = some after ∧
        after.count = before.count + tree.positions.countP fun p => p.isReached && entry.2 p) ∧
    ∀ p : Spot,
      (p.isKeyword = true → jumpCounters.countP (fun entry => entry.2 p) = 0) ∧
      (p.isJump = true →
        jumpCounters.countP (fun entry => entry.2 p) = if p.isLabelledJump then 1 else 0) := by
  have htree : file.tree = conversion [] tree := eq_conversion_of_normalize hfile
  have hintegers : ∀ e ∈ file.tree.values, e.HasIntegers := by
    rw [htree]
    exact hasIntegers_conversion h
  obtain ⟨counters, ht, -, hcounters⟩ := analyzeFile_eq project hkeys hintegers
  refine ⟨⟨_, ht, ?_⟩, fun p => ⟨countP_jumps_of_isKeyword, countP_jumps_of_isJump⟩⟩
  intro entry hentry
  have hknown : ∀ entry ∈ jumpCounters, entry.1 ∈ catalog.keys := by decide
  obtain ⟨before, after, hbefore, hafter, hcount, -⟩ :=
    exists_takes (hkeys ▸ hknown entry hentry) (hcounters entry.1)
  refine ⟨before, after, hbefore, hafter, hcount.trans ?_⟩
  rw [htree, visits_conversion, List.countP_map, ← countP_visibleSpots_jumps tree hentry]
  congr 1
  refine List.countP_congr fun p _ => ?_
  rw [Function.comp_apply, occursAt_jumps p hentry]

/-- A loop with a label, from which a jump goes to the label, beside a labelled and a plain
return. -/
def labelledLoop : ParseTree :=
  named "source_file" 0 ""
    [named "labeled_expression" 0 ""
      [named "label" 0 "loop@" [],
        named "while_statement" 5 ""
          [named "labeled_expression" 20 ""
            [named "label" 20 "break@" [], named "simple_identifier" 26 "loop" []]]],
      named "return_expression" 40 ""
        [.node ⟨"return@", 40, 47, false, false, none, "return@".toUTF8.toList⟩ [],
          named "simple_identifier" 47 "f" []],
      named "return_expression" 50 "" []]

/-- Of the two labels the keyword is not counted, and of the two returns the plain one is not. -/
theorem analyzeFile_labelledLoop :
    (Session.ofSpecs catalog false).keys = catalog.keys ∧
      normalize labelledLoop = .ok (conversion [] labelledLoop) ∧
      IsMeasurable labelledLoop ∧
      ∃ t, Analysis.analyzeFile rules (.text "p")
          ⟨conversion [] labelledLoop, none, ⟨#[0]⟩⟩ (.ofSpecs catalog false) = (t, none) ∧
        ∀ key ∈ ["labeled_expressions", "qualified_break_continue", "return_with_label"],
          ∃ after, t.counter? key = some after ∧ after.count = 1 := by
  have hkeys : (Session.ofSpecs catalog false).keys = catalog.keys := by decide
  have hnormal : normalize labelledLoop = .ok (conversion [] labelledLoop) := by
    have hlegal : illegalText? (conversion [] labelledLoop).values = none := by decide +kernel
    rw [normalize_eq, hlegal]
  have hmeasurable : IsMeasurable labelledLoop := by
    have hpow : 10 ^ 2 ≤ 10 ^ digitLimit := Nat.pow_le_pow_right (by decide) (by decide)
    have hstart : ∀ token ∈ labelledLoop.values, token.start < 10 ^ 2 := by decide
    exact ⟨fun token htoken => Nat.lt_of_lt_of_le (hstart token htoken) hpow,
      Nat.lt_of_lt_of_le (by decide : labelledLoop.values.length < 10 ^ 2) hpow⟩
  obtain ⟨⟨t, ht, hcounters⟩, -⟩ := @analyzeFile_counts_jumps (.text "p") labelledLoop
    ⟨conversion [] labelledLoop, none, ⟨#[0]⟩⟩ _ hkeys hnormal hmeasurable
  refine ⟨hkeys, hnormal, hmeasurable, t, ht, ?_⟩
  have hone : ∀ entry ∈ jumpCounters,
      ∃ after, t.counter? entry.1 = some after ∧ after.count = 1 := by
    intro entry hentry
    obtain ⟨before, after, hbefore, hafter, hcount⟩ := hcounters entry hentry
    simp only [jumpCounters, List.mem_cons, List.not_mem_nil, or_false] at hentry
    rcases hentry with rfl | rfl | rfl <;>
      (obtain rfl : before = .empty _ _ := (Option.some.inj hbefore).symm
       exact ⟨after, hafter, hcount.trans (by decide +kernel)⟩)
  intro key hkey
  have hcounter : key ∈ jumpCounters.map (·.1) := hkey
  obtain ⟨entry, hentry, rfl⟩ := List.mem_map.mp hcounter
  exact hone entry hentry

end Kotlin
end FeatureCensus
