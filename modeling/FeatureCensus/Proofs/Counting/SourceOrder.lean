import FeatureCensus.Proofs.Counting.Entries
import FeatureCensus.Proofs.Counting.ParserTrees
import FeatureCensus.Proofs.Lines

/-!
# Places in source order

A tracked place tells the line on which a node of the parser tree begins.  The visible nodes stand
in the normalized tree in document order, and where the parser tree is well nested they begin in
that order too.  So the places that the analysis of a file adds to a counter are in the order of
the source.

Main results:

- Theorem {lit}`Syntax.starts_of_isNestedIn`: the nodes of a well nested tree begin in document
  order.
- Theorem {lit}`Analysis.placesFor_entriesOf`: entries are made at the nodes with findings, up to
  the first fault.
- Theorem {lit}`Analysis.usages_in_source_order`: the places that a file adds are those of nodes in
  the order of the source.
-/

namespace FeatureCensus

open Syntax Text

namespace Syntax

/-! ## Nested trees -/

mutual

/-- Whether a parser tree lies between two offsets, with the bytes of the children of each node
within those of the node. -/
def IsNestedIn (first last : Nat) : ParseTree → Prop
  | .node token children =>
    first ≤ token.start ∧ token.start ≤ token.stop ∧ token.stop ≤ last ∧
      AreNestedIn token.start token.stop children

/-- Whether parser trees lie between two offsets, each one ending before or where the next one
starts. -/
def AreNestedIn (first last : Nat) : Forest Token → Prop
  | [] => True
  | child :: rest => IsNestedIn first last child ∧ AreNestedIn child.value.stop last rest

end

/-- Whether a parser tree is well nested and lies within a source. -/
def IsWellNested (source : Bytes) (tree : ParseTree) : Prop :=
  IsNestedIn 0 source.length tree

theorem bounds_of_isNestedIn {first last : Nat} {tree : ParseTree}
    (h : IsNestedIn first last tree) :
    first ≤ tree.value.start ∧ tree.value.start ≤ tree.value.stop ∧ tree.value.stop ≤ last := by
  cases tree with
  | node token children =>
    rw [IsNestedIn] at h
    exact ⟨h.1, h.2.1, h.2.2.1⟩

mutual

/-- The nodes of a nested tree begin in document order, within the bytes of the tree. -/
theorem starts_of_isNestedIn {first last : Nat} {tree : ParseTree}
    (h : IsNestedIn first last tree) :
    tree.values.Pairwise (·.start ≤ ·.start) ∧
      ∀ token ∈ tree.values, first ≤ token.start ∧ token.start ≤ tree.value.stop := by
  cases tree with
  | node token children =>
    rw [IsNestedIn] at h
    obtain ⟨hfirst, hordered, -, hchildren⟩ := h
    obtain ⟨hpairwise, hbounds⟩ := starts_of_areNestedIn hchildren
    refine ⟨.cons (fun other hother => (hbounds other hother).1) hpairwise, ?_⟩
    intro other hother
    rcases List.mem_cons.1 hother with rfl | hbelow
    · exact ⟨hfirst, hordered⟩
    · exact ⟨hfirst.trans (hbounds other hbelow).1, (hbounds other hbelow).2⟩

theorem starts_of_areNestedIn {first last : Nat} {children : Forest Token}
    (h : AreNestedIn first last children) :
    (Tree.forestValues children).Pairwise (·.start ≤ ·.start) ∧
      ∀ token ∈ Tree.forestValues children, first ≤ token.start ∧ token.start ≤ last := by
  cases children with
  | nil => exact ⟨.nil, fun token htoken => absurd htoken List.not_mem_nil⟩
  | cons child rest =>
    rw [AreNestedIn] at h
    obtain ⟨hfirst, hordered, hlast⟩ := bounds_of_isNestedIn h.1
    obtain ⟨hchild, hwithin⟩ := starts_of_isNestedIn h.1
    obtain ⟨hrest, hbehind⟩ := starts_of_areNestedIn h.2
    rw [Tree.forestValues]
    constructor
    · rw [List.pairwise_append]
      refine ⟨hchild, hrest, fun token htoken later hlater => ?_⟩
      exact (hwithin token htoken).2.trans (hbehind later hlater).1
    · intro token htoken
      rcases List.mem_append.1 htoken with hin | hin
      · exact ⟨(hwithin token hin).1, (hwithin token hin).2.trans hlast⟩
      · refine ⟨?_, (hbehind token hin).2⟩
        exact (hfirst.trans hordered).trans (hbehind token hin).1

end

/-- The offset at which the node begins. -/
def Spot.start (p : Spot) : Nat :=
  p.here.value.start

/-- The visible nodes of a nested tree begin in document order. -/
theorem pairwise_start_visibleSpots {first last : Nat} {tree : ParseTree}
    (h : IsNestedIn first last tree) :
    (visibleSpots tree).Pairwise fun p q => p.start ≤ q.start := by
  have hvalues : tree.positions.map (·.here.value) = tree.values := by
    rw [← Tree.map_value_visits, ← Tree.map_visit_positions, List.map_map]
    rfl
  have hpositions : tree.positions.Pairwise fun p q => Spot.start p ≤ Spot.start q := by
    have hstarts := (starts_of_isNestedIn h).1
    rw [← hvalues, List.pairwise_map] at hstarts
    exact hstarts
  exact hpositions.filter _

end Syntax

namespace Analysis

/-! ## Findings at nodes -/

/-- The findings at the visible nodes of a parser tree, each with its node. -/
def spotFindings (rules : List Rule) (tree : ParseTree) : List (Spot × Finding) :=
  (visibleSpots tree).flatMap fun p =>
    (findingsAt (Rule.dispatchTable rules) p.image).map fun finding => (p, finding)

/-- The visible nodes at which rules add to a counter, in document order, each one as often as
they do. -/
def spotsOf (rules : List Rule) (key : String) (tree : ParseTree) : List Spot :=
  (visibleSpots tree).flatMap fun p =>
    ((findingsAt (Rule.dispatchTable rules) p.image).filter (· == .count key)).map fun _ => p

theorem map_filter_spotFindings (rules : List Rule) (key : String) (tree : ParseTree) :
    ((spotFindings rules tree).filter (·.2 == .count key)).map (·.1) =
      spotsOf rules key tree := by
  rw [spotFindings, spotsOf, List.filter_flatMap, List.map_flatMap]
  refine List.flatMap_congr fun p _ => ?_
  rw [List.filter_map, List.map_map]
  rfl

/-- The findings in a normalized tree are made at the visible nodes. -/
theorem findings_conversion (rules : List Rule) (tree : ParseTree) :
    findings (Rule.dispatchTable rules) (conversion [] tree) =
      (spotFindings rules tree).map fun found => (found.1.element, found.2) := by
  rw [findings, visits_conversion, List.flatMap_map, spotFindings, List.map_flatMap]
  refine List.flatMap_congr fun p _ => ?_
  rw [List.map_map, Kotlin.element_image]
  rfl

/-- The nodes at which rules add to a counter begin in the order of the source. -/
theorem pairwise_start_spotsOf (rules : List Rule) (key : String) {first last : Nat}
    {tree : ParseTree} (h : IsNestedIn first last tree) :
    (spotsOf rules key tree).Pairwise fun p q => p.start ≤ q.start := by
  rw [spotsOf, List.pairwise_flatMap]
  constructor
  · intro p _
    rw [List.pairwise_map]
    exact List.pairwise_of_forall fun _ _ => le_refl _
  · refine (pairwise_start_visibleSpots h).imp fun hle p hp q hq => ?_
    obtain ⟨_, -, rfl⟩ := List.mem_map.1 hp
    obtain ⟨_, -, rfl⟩ := List.mem_map.1 hq
    exact hle

/-! ## Entries at nodes -/

/-- The place of a node in a file of a project. -/
def spotPlace (project : PlaceName) (file : ParsedFile) (p : Spot) : Usage :=
  ⟨project, .ofText? file.path, file.lines.lineNumber p.start⟩

theorem lineOf_element {lines : LineIndex} {p : Spot} {line : Int}
    (h : lineOf lines p.element = .ok line) : line = lines.lineNumber p.start := by
  rw [Spot.element, lineOf, attribute?_start] at h
  cases hstart : parseInteger (toString p.here.value.start) with
  | error error =>
    simp only [hstart] at h
    cases h
  | ok start =>
    simp only [hstart] at h
    rw [← Except.ok.inj h, eq_of_parseInteger_toString hstart]
    rfl

theorem entryOf_element {keys : List String} {project : PlaceName} {file : ParsedFile}
    {p : Spot} {finding : Finding} {entry : Entry}
    (h : entryOf keys project file (p.element, finding) = .ok entry) :
    finding = .count entry.key ∧ entry.place = spotPlace project file p := by
  refine ⟨(entryOf_eq_ok h).1, ?_⟩
  cases finding with
  | malformed error => cases h
  | count key =>
    simp only [entryOf] at h
    split at h
    · cases h
    · rename_i line hline
      split at h
      · obtain rfl := Except.ok.inj h
        rw [lineOf_element hline, spotPlace]
      · cases h

/-- Entries are made at the nodes with findings, in their order, up to the first fault. -/
theorem placesFor_entriesOf (keys : List String) (project : PlaceName) (file : ParsedFile)
    (found : List (Spot × Finding)) :
    let findings := found.map fun found => (found.1.element, found.2)
    ∃ entered, entered <+: found ∧
      (faultOf? keys project file findings = none → entered = found) ∧
      ∀ key, Entry.placesFor key (entriesOf keys project file findings) =
        (entered.filter (·.2 == .count key)).map fun found => spotPlace project file found.1 := by
  induction found with
  | nil => exact ⟨[], List.prefix_rfl, fun _ => rfl, fun key => rfl⟩
  | cons first rest ih =>
    obtain ⟨p, finding⟩ := first
    obtain ⟨entered, hinitial, hall, hplaces⟩ := ih
    simp only [List.map_cons, entriesOf, faultOf?]
    cases hentry : entryOf keys project file (p.element, finding) with
    | error fault =>
      refine ⟨[], List.nil_prefix, fun h => ?_, fun key => rfl⟩
      cases h
    | ok entry =>
      obtain ⟨rfl, hplace⟩ := entryOf_element hentry
      refine ⟨(p, .count entry.key) :: entered, ?_, fun h => ?_, fun key => ?_⟩
      · exact List.cons_prefix_cons.2 ⟨rfl, hinitial⟩
      · rw [hall h]
      · have hfirst := Entry.placesFor_append key [entry]
          (entriesOf keys project file (rest.map fun found => (found.1.element, found.2)))
        rw [List.singleton_append, hplaces key, Entry.placesFor_singleton, hplace] at hfirst
        simp only at hfirst ⊢
        rw [hfirst, List.filter_cons]
        by_cases hkey : entry.key = key
        · simp [hkey]
        · simp [hkey]

/-! ## Files -/

/-- The analysis of a file adds to each tracking counter the places of the nodes at which rules
add to it, in document order and up to the first fault. -/
theorem analyzeFile_adds_spots (rules : List Rule) (project : PlaceName) (file : ParsedFile)
    {tree : ParseTree} (hmade : normalize tree = .ok file.tree) {s : Session}
    (hkeys : s.keys.Nodup) :
    ∃ t fault?, analyzeFile rules project file s = (t, fault?) ∧ t.keys = s.keys ∧
      ∀ key before, s.counter? key = some before → before.tracks = true →
        ∃ after spots, t.counter? key = some after ∧
          spots <+: spotsOf rules key tree ∧ (fault? = none → spots = spotsOf rules key tree) ∧
          after.usages.toList = before.usages.toList ++ spots.map (spotPlace project file) := by
  have hrun := analyzeFile_eq rules ⟨project, file⟩ hkeys
  rw [Task.entries, Task.fault?, Kotlin.eq_conversion_of_normalize hmade,
    findings_conversion] at hrun
  obtain ⟨entered, hinitial, hall, hplaces⟩ :=
    placesFor_entriesOf s.keys project file (spotFindings rules tree)
  refine ⟨_, _, hrun, Session.keys_enter _ _, fun key before hbefore htracks => ?_⟩
  have hafter : ∀ entries, ((s.addTotals 0 1 file.lines.lineCount).enter entries).counter? key =
      some (before.incrementAll (Entry.placesFor key entries)) := by
    intro entries
    rw [Session.counter?_enter, Session.counter?_addTotals, hbefore, Option.map_some]
  refine ⟨_, (entered.filter (·.2 == .count key)).map (·.1), hafter _, ?_, fun hnone => ?_, ?_⟩
  · rw [← map_filter_spotFindings]
    exact (hinitial.filter _).map _
  · rw [hall hnone, map_filter_spotFindings]
  · have hproject : ∀ place ∈ (entered.filter (·.2 == .count key)).map fun found =>
        spotPlace project file found.1, place.project = project := by
      intro place hplace
      obtain ⟨found, -, rfl⟩ := List.mem_map.1 hplace
      rfl
    have hadded := (before.takes_incrementAll hproject).usages
    rw [hplaces key, hadded, if_pos htracks, List.map_map]
    rfl

/-- The lines of nodes that begin in the order of the source do not decrease. -/
theorem pairwise_lineNumber {source : Bytes} {spots : List Spot}
    (h : spots.Pairwise fun p q => p.start ≤ q.start) :
    (spots.map fun p => ((LineIndex.ofBytes source).lineNumber p.start : Int)).Pairwise
      (· ≤ ·) := by
  rw [List.pairwise_map]
  exact h.imp fun hle =>
    Int.ofNat_le.2 (LineIndex.lineNumber_ofBytes_mono source (Int.ofNat_le.2 hle))

/-- The analysis of a file whose parser tree is well nested adds to each tracking counter the
places of the nodes at which rules add to it, in document order and up to the first fault.  The
line of each is one more than the number of line feeds before its node, so lines do not decrease
and are lines of the source. -/
theorem usages_in_source_order (rules : List Rule) (project : PlaceName) (path : Option String)
    {source : Bytes} {tree : ParseTree} {made : ElementTree}
    (hnested : IsWellNested source tree) (hmade : normalize tree = .ok made) {s : Session}
    (hkeys : s.keys.Nodup) :
    ∃ t fault?, analyzeFile rules project ⟨made, path, .ofBytes source⟩ s = (t, fault?) ∧
      t.keys = s.keys ∧
      ∀ key before, s.counter? key = some before → before.tracks = true →
        ∃ after spots, t.counter? key = some after ∧
          spots <+: spotsOf rules key tree ∧ (fault? = none → spots = spotsOf rules key tree) ∧
          after.usages.toList = before.usages.toList ++ spots.map (fun p =>
            ⟨project, .ofText? path, (1 + (source.take p.start).count LineIndex.lineFeed : Nat)⟩) ∧
          let lines := (after.usages.toList.drop before.usages.size).map Usage.line
          lines.Pairwise (· ≤ ·) ∧
          ∀ line ∈ lines, 1 ≤ line ∧ line ≤ max 1 (LineIndex.ofBytes source).lineCount := by
  obtain ⟨t, fault?, hrun, htkeys, hcounters⟩ := analyzeFile_adds_spots rules project
    ⟨made, path, .ofBytes source⟩ hmade hkeys
  refine ⟨t, fault?, hrun, htkeys, fun key before hbefore htracks => ?_⟩
  obtain ⟨after, spots, hafter, hinitial, hall, husages⟩ := hcounters key before hbefore htracks
  have hlines : (after.usages.toList.drop before.usages.size).map Usage.line =
      spots.map fun p => ((LineIndex.ofBytes source).lineNumber p.start : Int) := by
    rw [husages, ← Array.length_toList, List.drop_left, List.map_map]
    rfl
  refine ⟨after, spots, hafter, hinitial, hall, ?_, ?_⟩
  · rw [husages]
    congr 2
    funext p
    rw [spotPlace, LineIndex.lineNumber_ofBytes]
  · rw [hlines]
    refine ⟨pairwise_lineNumber ((pairwise_start_spotsOf rules key hnested).sublist
      hinitial.sublist), fun line hline => ?_⟩
    obtain ⟨p, -, rfl⟩ := List.mem_map.1 hline
    have hlow := (LineIndex.ofBytes source).one_le_lineNumber p.start
    have hhigh := LineIndex.lineNumber_ofBytes_le source p.start
    omega

/-- Two classes on the first and third line of a source. -/
def twoClassesSource : Bytes := "class A\n\nclass B".toUTF8.toList

/-- A named node between two offsets. -/
def nodeBetween (type : String) (start stop : Nat) (children : Forest Token) : ParseTree :=
  .node ⟨type, start, stop, true, false, none, []⟩ children

/-- The tree of the two classes, of which the first one stands behind a wrapper. -/
def twoClasses : ParseTree :=
  nodeBetween "source_file" 0 16
    [nodeBetween "declaration" 0 7 [nodeBetween "class_declaration" 0 7 []],
      nodeBetween "class_declaration" 9 16 []]

/-- Two rules count each of the two classes, whose lines are told. -/
theorem usages_in_source_order_twoClasses :
    IsWellNested twoClassesSource twoClasses ∧
      normalize twoClasses = .ok (conversion [] twoClasses) ∧
      (Session.ofSpecs smallCatalog false).keys.Nodup ∧
      ∃ t kept,
        analyzeFile
          [.counting "first" Kind.classDeclaration.name ["kept"],
            .counting "second" Kind.classDeclaration.name ["passing", "kept"]]
          (.text "p") ⟨conversion [] twoClasses, some "A.kt", .ofBytes twoClassesSource⟩
          (.ofSpecs smallCatalog false) = (t, none) ∧
        t.counter? "kept" = some kept ∧ kept.usages.toList.map Usage.line = [1, 1, 3, 3] := by
  have hnested : IsWellNested twoClassesSource twoClasses := by
    have hlength : twoClassesSource.length = 16 := by decide +kernel
    simp [IsWellNested, hlength, twoClasses, nodeBetween, IsNestedIn, AreNestedIn]
  have hmade : normalize twoClasses = .ok (conversion [] twoClasses) := by
    have hlegal : illegalText? (conversion [] twoClasses).values = none := by decide +kernel
    rw [normalize_eq, hlegal]
  have hkeys : (Session.ofSpecs smallCatalog false).keys.Nodup := by decide
  obtain ⟨t, fault?, hrun, -, hcounters⟩ := usages_in_source_order
    [.counting "first" Kind.classDeclaration.name ["kept"],
      .counting "second" Kind.classDeclaration.name ["passing", "kept"]]
    (.text "p") (some "A.kt") hnested hmade hkeys
  have hdone : fault? = none := by
    have hfault := congrArg Prod.snd hrun
    exact hfault.symm.trans (by decide +kernel)
  obtain ⟨kept, spots, hkept, -, hall, husages, -⟩ :=
    hcounters "kept" (.empty "Kept" true) (by decide) rfl
  refine ⟨hnested, hmade, hkeys, t, kept, hdone ▸ hrun, hkept, ?_⟩
  rw [husages, hall hdone]
  decide +kernel

end Analysis
end FeatureCensus
