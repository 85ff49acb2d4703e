import FeatureCensus.Proofs.Counting.ParserTrees

/-!
# Attributes of normalized trees

Every element of a normalized tree is of a known kind and has no other attributes than those
documented for the kind, followed by its place in the source.  Where an attribute tells a number
it holds the numeral of one.  So the rules read all numbers that they ask for and, as they use
counters of the catalog only, the analysis of a normalized tree never fails.

Main results:

- Theorem {lit}`Syntax.isDocumented_classify`: the attributes that classification gives are
  documented for the kind.
- Theorem {lit}`Syntax.isWellFormed_of_normalize`: so are those of the whole normalized tree.
- Theorem {lit}`Kotlin.useOnly_findings`: the rules use counters of the catalog only.
- Theorem {lit}`Kotlin.analyzeFile_of_normalize`: the analysis of a normalized tree never fails.
-/

namespace FeatureCensus

open Syntax Text

namespace Syntax

/-! ## Documented attributes -/

/-- The names of the attributes that are documented for a kind. -/
def Kind.attributeNames : Kind → List String
  | .classDeclaration =>
    ["enum", "inner", "interface", "type_parameters", "constructor_visibility",
      "constructor_parameters"]
  | .enumEntry => ["body"]
  | .object => ["companion"]
  | .function => ["inline", "receiver"]
  | .lambda => ["return_type"]
  | .jump => ["keyword", "target"]
  | .whenBranches => ["subject"]
  | .property => ["mutable"]
  | .typeParameter => ["variance"]
  | .typeArgument => ["projection"]
  | .binary => ["operator"]
  | .typeCast => ["operator"]
  | .node => ["type"]
  | .file | .error | .delegation | .body | .declaration | .label | .whileLoop | .doWhileLoop
  | .whenRangeCondition | .fieldReference => []

/-- The names of the attributes that tell of the place in the source. -/
def placeNames : List String := ["start", "end"]

/-- The names of the attributes that rules read as numbers. -/
def numberNames : List String := ["start", "type_parameters", "constructor_parameters"]

/-- Whether attributes are among those of the given names, each at most once, and those that tell
numbers hold numerals. -/
structure AreAmong (names : List String) (attributes : List (String × String)) : Prop where
  names : (attributes.map (·.1)).Sublist names
  numerals : ∀ entry ∈ attributes, entry.1 ∈ numberNames → ∃ n : Nat, entry.2 = toString n

namespace AreAmong

variable {names others : List String} {first second : List (String × String)}

theorem nil : AreAmong names [] where
  names := List.nil_sublist names
  numerals entry h := by cases h

theorem append (hfirst : AreAmong names first) (hsecond : AreAmong others second) :
    AreAmong (names ++ others) (first ++ second) where
  names := by
    rw [List.map_append]
    exact hfirst.names.append hsecond.names
  numerals entry h := (List.mem_append.1 h).elim (hfirst.numerals entry) (hsecond.numerals entry)

/-- Attributes that tell no numbers may have any values. -/
theorem of_names (hnames : (first.map (·.1)).Sublist names)
    (hplain : ∀ name ∈ names, name ∉ numberNames) : AreAmong names first where
  names := hnames
  numerals _ hentry hnumber :=
    absurd hnumber (hplain _ (hnames.subset (List.mem_map_of_mem hentry)))

theorem numeral (name : String) (n : Nat) : AreAmong [name] [(name, toString n)] where
  names := List.Sublist.refl _
  numerals entry h _ := ⟨n, by rw [List.mem_singleton.1 h]⟩

theorem flag {name : String} (hplain : name ∉ numberNames) (set : Bool) :
    AreAmong [name] (flag name set) := by
  cases set with
  | false => exact .nil
  | true => exact of_names (List.Sublist.refl _) (by simpa using hplain)

theorem optional {name : String} (hplain : name ∉ numberNames) (value? : Option String) :
    AreAmong [name] (optional name value?) := by
  cases value? with
  | none => exact .nil
  | some value => exact of_names (List.Sublist.refl _) (by simpa using hplain)

/-- Of an attribute that may be absent the value is a numeral if it counts. -/
theorem optional_numeral {β : Type} (name : String) (value? : Option β) (count : β → Nat) :
    AreAmong [name] (Syntax.optional name (value?.map fun value => toString (count value))) := by
  cases value? with
  | none => exact .nil
  | some value => exact numeral name (count value)

end AreAmong

/-! ## The attributes of each kind -/

theorem areAmong_constructorAttributes (constructor : ParseTree) :
    AreAmong ["constructor_visibility", "constructor_parameters"]
      (constructorAttributes constructor) := by
  change AreAmong (["constructor_visibility"] ++ ["constructor_parameters"]) _
  exact .append (.optional (by decide) _) (.numeral _ _)

theorem areAmong_classAttributes (children : Forest Token) :
    AreAmong (Kind.attributeNames .classDeclaration) (classAttributes children) := by
  have hconstructor : AreAmong ["constructor_visibility", "constructor_parameters"]
      (((childOfType? ["primary_constructor"] children).map constructorAttributes).getD []) := by
    cases childOfType? ["primary_constructor"] children with
    | none => exact .nil
    | some constructor => exact areAmong_constructorAttributes constructor
  change AreAmong (["enum"] ++ ["inner"] ++ ["interface"] ++ ["type_parameters"] ++
    ["constructor_visibility", "constructor_parameters"]) _
  refine .append (.append (.append (.append ?_ ?_) ?_) ?_) hconstructor
  · exact .flag (by decide) _
  · exact .flag (by decide) _
  · exact .flag (by decide) _
  · exact .optional_numeral _ _ _

theorem areAmong_functionAttributes (children : Forest Token) :
    AreAmong (Kind.attributeNames .function) (functionAttributes children) := by
  change AreAmong (["inline"] ++ ["receiver"]) _
  exact .append (.flag (by decide) _) (.flag (by decide) _)

theorem areAmong_jumpAttributes (keyword target : String) :
    AreAmong (Kind.attributeNames .jump) (jumpAttributes keyword target) :=
  .of_names (List.Sublist.refl _) (by decide)

/-- Whether an element is of a known kind and has attributes that are documented for it. -/
def Element.IsDocumented (e : Element) : Prop :=
  ∃ kind, e.tag = .known kind ∧ AreAmong kind.attributeNames e.attributes

theorem isDocumented_of_areAmong {kind : Kind} {attributes : List (String × String)}
    (h : AreAmong kind.attributeNames attributes) :
    Element.IsDocumented ⟨.known kind, attributes⟩ :=
  ⟨kind, rfl, h⟩

/-- Attributes that tell no numbers are documented if their names are. -/
theorem isDocumented_of_names {kind : Kind} {attributes : List (String × String)}
    (hnames : (attributes.map (·.1)).Sublist kind.attributeNames)
    (hplain : ∀ name ∈ kind.attributeNames, name ∉ numberNames) :
    Element.IsDocumented ⟨.known kind, attributes⟩ :=
  isDocumented_of_areAmong (.of_names hnames hplain)

theorem isDocumented_flag {kind : Kind} {name : String} (hname : kind.attributeNames = [name])
    (hplain : name ∉ numberNames) (set : Bool) :
    Element.IsDocumented ⟨.known kind, flag name set⟩ :=
  isDocumented_of_areAmong (hname ▸ .flag hplain set)

theorem isDocumented_construct? (above : List String) (token : Token) (children : Forest Token) :
    ((construct? above token children).getD
      ⟨.known .node, [("type", token.type)]⟩).IsDocumented := by
  have hnode : Element.IsDocumented ⟨.known .node, [("type", token.type)]⟩ :=
    isDocumented_of_names (List.Sublist.refl _) (by decide)
  unfold construct?
  split
  case h_1 => exact isDocumented_of_areAmong (areAmong_classAttributes children)
  case h_2 => exact isDocumented_of_areAmong .nil
  case h_3 => exact isDocumented_flag rfl (by decide) _
  case h_4 => exact isDocumented_flag rfl (by decide) _
  case h_5 => exact isDocumented_of_areAmong (areAmong_functionAttributes children)
  case h_6 => exact isDocumented_flag rfl (by decide) _
  case h_7 =>
    split
    · exact isDocumented_of_areAmong .nil
    · exact hnode
  case h_8 =>
    cases hjump : labeledJump? children with
    | none => exact hnode
    | some attributes =>
      simp only [labeledJump?, Option.bind_eq_bind, Option.bind_eq_some_iff, Option.pure_def,
        Option.some.injEq] at hjump
      obtain ⟨marker, -, keyword, -, rfl⟩ := hjump
      exact isDocumented_of_areAmong (areAmong_jumpAttributes _ _)
  case h_9 => exact isDocumented_of_areAmong (areAmong_jumpAttributes _ _)
  case h_10 => exact isDocumented_flag rfl (by decide) _
  case h_11 => exact isDocumented_flag rfl (by decide) _
  case h_12 => exact isDocumented_of_names (List.Sublist.refl _) (by decide)
  case h_13 => exact isDocumented_of_names (List.Sublist.refl _) (by decide)
  case h_14 => exact isDocumented_of_names (List.Sublist.refl _) (by decide)
  case h_15 => exact isDocumented_of_names (List.Sublist.refl _) (by decide)
  case h_16 =>
    split
    · exact isDocumented_of_areAmong .nil
    · exact hnode

/-- Every element is documented. -/
theorem isDocumented_classify (above : List String) (token : Token) (children : Forest Token) :
    (classify above token children).IsDocumented := by
  unfold classify
  split
  · exact isDocumented_of_areAmong .nil
  · cases simpleKinds.lookup token.type with
    | some kind => exact isDocumented_of_areAmong .nil
    | none => exact isDocumented_construct? above token children

/-! ## Normalized trees -/

/-- Whether an element is of a known kind, has attributes that are documented for it and then its
place in the source, and has numerals where it tells numbers. -/
structure Element.IsWellFormed (e : Element) : Prop where
  kind : ∃ kind names, e.tag = .known kind ∧ names.Sublist kind.attributeNames ∧
    e.attributes.map (·.1) = names ++ placeNames
  numerals : ∀ name ∈ numberNames, ∀ text, e.attribute? name = some text →
    ∃ n : Nat, text = toString n

theorem isWellFormed_placedElement (above : List String) (token : Token)
    (children : Forest Token) : (placedElement above token children).IsWellFormed := by
  obtain ⟨kind, hkind, hamong⟩ := isDocumented_classify above token children
  refine ⟨⟨kind, _, hkind, hamong.names, ?_⟩, fun name hname text htext => ?_⟩
  · rw [placedElement, List.map_append]
    rfl
  · have hentry : (name, text) ∈ (placedElement above token children).attributes :=
      Association.mem_of_lookup htext
    rw [placedElement, List.mem_append] at hentry
    rcases hentry with hentry | hentry
    · exact hamong.numerals _ hentry hname
    · simp only [List.mem_cons, Prod.mk.injEq, List.not_mem_nil, or_false] at hentry
      rcases hentry with ⟨-, rfl⟩ | ⟨-, rfl⟩
      · exact ⟨_, rfl⟩
      · exact ⟨_, rfl⟩

/-- Every element of a normalized tree is well formed. -/
theorem isWellFormed_of_normalize {tree : ParseTree} {made : ElementTree}
    (h : normalize tree = .ok made) {e : Element} (he : e ∈ made.values) : e.IsWellFormed := by
  rw [Kotlin.eq_conversion_of_normalize h, ← Tree.map_value_visits, visits_conversion,
    List.map_map] at he
  obtain ⟨p, -, rfl⟩ := List.mem_map.1 he
  rw [Function.comp_apply, show (Spot.image p).here.value = p.element from Kotlin.element_image p]
  exact isWellFormed_placedElement _ _ _

/-- Whether the numerals in an element are no longer than the longest that are written.  A number
of more digits is neither written nor read, so a conversion that comes to one does not end well. -/
def Element.IsWritable (e : Element) : Prop :=
  ∀ name ∈ numberNames, ∀ text, e.attribute? name = some text → text.length ≤ digitLimit

namespace Element

/-- A numeral that is no longer than those that are written is read back. -/
theorem IsWellFormed.parseInteger_eq {e : Element} (h : e.IsWellFormed) (hwritable : e.IsWritable)
    {name text : String} (hname : name ∈ numberNames) (htext : e.attribute? name = some text) :
    ∃ n : Nat, text = toString n ∧ parseInteger text = .ok n := by
  obtain ⟨n, rfl⟩ := h.numerals name hname text htext
  have hlength := hwritable name hname _ htext
  rw [Nat.toString_eq_repr, ← String.length_toList, Nat.toList_repr,
    Nat.length_toDigits_le_iff (by decide) (by decide)] at hlength
  exact ⟨n, rfl, parseInteger_toString hlength⟩

theorem IsWellFormed.hasInteger {e : Element} (h : e.IsWellFormed) (hwritable : e.IsWritable)
    {name : String} (hname : name ∈ numberNames) : e.HasInteger name := by
  cases htext : e.attribute? name with
  | none => exact ⟨0, number_of_none htext⟩
  | some text =>
    obtain ⟨n, -, hn⟩ := h.parseInteger_eq hwritable hname htext
    exact ⟨n, by rw [number, htext]; exact hn⟩

theorem IsWellFormed.hasIntegers {e : Element} (h : e.IsWellFormed) (hwritable : e.IsWritable) :
    e.HasIntegers where
  start := h.hasInteger hwritable (by decide)
  typeParameters _ := h.hasInteger hwritable (by decide)
  constructorParameters _ := h.hasInteger hwritable (by decide)

end Element
end Syntax

/-! ## Counters -/

/-- Whether findings use no other counters than those of the given keys. -/
def UseOnly (keys : List String) (findings : List Finding) : Prop :=
  ∀ key, .count key ∈ findings → key ∈ keys

namespace UseOnly

variable {keys : List String} {first second : List Finding}

theorem nil : UseOnly keys [] := by
  intro key h
  cases h

theorem cons {key : String} (hkey : key ∈ keys) (hrest : UseOnly keys first) :
    UseOnly keys (.count key :: first) := by
  intro other h
  rcases List.mem_cons.1 h with h | h
  · cases h
    exact hkey
  · exact hrest other h

theorem append (hfirst : UseOnly keys first) (hsecond : UseOnly keys second) :
    UseOnly keys (first ++ second) :=
  fun key h => (List.mem_append.1 h).elim (hfirst key) (hsecond key)

theorem when (condition : Bool) (h : UseOnly keys first) :
    UseOnly keys (Finding.when condition first) := by
  cases condition with
  | false => exact nil
  | true => exact h

/-- Where a condition cannot be decided no counter is used. -/
theorem whenOk (condition : Except IntegerError Bool) (h : UseOnly keys first) :
    UseOnly keys (Finding.whenOk condition first) := by
  cases condition with
  | ok holds => exact h.when holds
  | error e =>
    intro key hkey
    cases List.mem_singleton.1 hkey

theorem single {key : String} (hkey : key ∈ keys) : UseOnly keys [.count key] :=
  cons hkey nil

end UseOnly

namespace Kotlin

theorem useOnly_classFindings (site : Site) : UseOnly catalog.keys (classFindings site) := by
  have hinner : UseOnly catalog.keys (innerFindings site) :=
    .cons (by decide) (.whenOk _ (.single (by decide)))
  have henum : UseOnly catalog.keys (enumFindings site) :=
    .cons (by decide) (.append (.whenOk _ (.single (by decide))) (.when _ (.single (by decide))))
  exact .cons (by decide)
    (.append (.append (.when _ hinner) (.when _ (.single (by decide)))) (.when _ henum))

theorem useOnly_functionFindings (site : Site) :
    UseOnly catalog.keys (functionFindings site) := by
  have hextension : UseOnly catalog.keys (.count "extension_functions" ::
      Finding.when (isInsideClass site.ancestors) [.count "extension_functions_in_classes"]) :=
    .cons (by decide) (.when _ (.single (by decide)))
  exact .cons (by decide) (.append (.when _ (.single (by decide))) (.when _ hextension))

theorem useOnly_jumpFindings (site : Site) : UseOnly catalog.keys (jumpFindings site) := by
  refine .when _ ?_
  split
  · exact .single (by decide)
  · exact .when _ (.single (by decide))

/-- A choice between two counters. -/
theorem useOnly_choice {first second : String} (hfirst : first ∈ catalog.keys)
    (hsecond : second ∈ catalog.keys) (condition : Bool) :
    UseOnly catalog.keys [.count (if condition then first else second)] := by
  split
  · exact .single hfirst
  · exact .single hsecond

/-- The rules use counters of the catalog only, whatever they look at. -/
theorem useOnly_findings {rule : Rule} (h : rule ∈ rules) (site : Site) :
    UseOnly catalog.keys (rule.findings site) := by
  simp only [rules, List.mem_cons, List.not_mem_nil, or_false] at h
  rcases h with rfl | rfl | rfl | rfl | rfl | rfl | rfl | rfl | rfl | rfl | rfl | rfl | rfl |
    rfl | rfl | rfl | rfl | rfl | rfl
  · exact .single (by decide)
  · exact .single (by decide)
  · exact useOnly_classFindings site
  · exact .cons (by decide) (.when _ (.single (by decide)))
  · exact .cons (by decide)
      (.append (.when _ (.single (by decide))) (.when _ (.single (by decide))))
  · exact useOnly_functionFindings site
  · exact .cons (by decide) (.when _ (.single (by decide)))
  · exact .single (by decide)
  · exact useOnly_jumpFindings site
  · exact .single (by decide)
  · exact .single (by decide)
  · exact useOnly_choice (by decide) (by decide) _
  · exact .single (by decide)
  · exact useOnly_choice (by decide) (by decide) _
  · exact .cons (by decide) (.when _ (.single (by decide)))
  · exact .cons (by decide)
      (.append (.when _ (.single (by decide))) (.when _ (.single (by decide))))
  · exact .when _ (.single (by decide))
  · exact .when _ (.single (by decide))
  · exact .single (by decide)

/-- The analysis of a normalized tree never fails, once its numbers are written.  Its rules use
counters of the catalog only, and its elements have the attributes that are documented. -/
theorem analyzeFile_of_normalize {tree : ParseTree} {made : ElementTree}
    (hmade : normalize tree = .ok made) (hwritable : ∀ e ∈ made.values, e.IsWritable) :
    (∀ (project : PlaceName) (path : Option String) (lines : LineIndex) (s : Session),
      s.keys = catalog.keys →
        ∃ t, Analysis.analyzeFile rules project ⟨made, path, lines⟩ s = (t, none)) ∧
      (∀ rule ∈ rules, ∀ (site : Site) (key : String), .count key ∈ rule.findings site →
        key ∈ catalog.keys) ∧
      ∀ e ∈ made.values,
        (∃ kind names, e.tag = .known kind ∧ names.Sublist kind.attributeNames ∧
          e.attributes.map (·.1) = names ++ placeNames) ∧
        ∀ name ∈ numberNames, ∀ text, e.attribute? name = some text →
          ∃ n : Nat, text = toString n ∧ parseInteger text = .ok n := by
  have hwell : ∀ e ∈ made.values, e.IsWellFormed := fun e => isWellFormed_of_normalize hmade
  refine ⟨fun project path lines s hkeys => ?_, fun rule hrule site =>
    useOnly_findings hrule site, fun e he => ⟨(hwell e he).kind, ?_⟩⟩
  · have hintegers : ∀ e ∈ (ParsedFile.mk made path lines).tree.values, e.HasIntegers :=
      fun e he => (hwell e he).hasIntegers (hwritable e he)
    obtain ⟨counters, ht, -⟩ := analyzeFile_eq project hkeys hintegers
    exact ⟨_, ht⟩
  · intro name hname text htext
    exact (hwell e he).parseInteger_eq (hwritable e he) hname htext

/-- A generic class with a parameter and a parenthesis that the parser had to supply, and something
that it could not read. -/
def brokenSource : ParseTree :=
  named "source_file" 0 ""
    [named "class_declaration" 0 ""
      [named "type_parameters" 7 "" [named "type_parameter" 8 "T" []],
        named "primary_constructor" 10 ""
          [named "class_parameters" 10 ""
            [named "class_parameter" 11 "" [], .node ⟨")", 12, 12, false, true, none, []⟩ []]]],
      named "ERROR" 14 "" [named "unheard_of" 14 "" []]]

/-- The analysis of the broken source does not fail, and nothing stays unwritten in its tree. -/
theorem analyzeFile_brokenSource :
    (Session.ofSpecs catalog false).keys = catalog.keys ∧
      normalize brokenSource = .ok (conversion [] brokenSource) ∧
      (∀ e ∈ (conversion [] brokenSource).values, e.IsWritable) ∧
      (∃ t, Analysis.analyzeFile rules (.text "p") ⟨conversion [] brokenSource, none, ⟨#[0]⟩⟩
        (.ofSpecs catalog false) = (t, none)) ∧
      (conversion [] brokenSource).values.map (·.tag) =
        [.known .file, .known .classDeclaration, .known .node, .known .typeParameter, .known .node,
          .known .node, .known .node, .known .error, .known .error, .known .node] := by
  have hkeys : (Session.ofSpecs catalog false).keys = catalog.keys := by decide
  have hnormal : normalize brokenSource = .ok (conversion [] brokenSource) := by
    have hlegal : illegalText? (conversion [] brokenSource).values = none := by decide +kernel
    rw [normalize_eq, hlegal]
  have hwritable : ∀ e ∈ (conversion [] brokenSource).values, e.IsWritable := by
    have hshort : ∀ e ∈ (conversion [] brokenSource).values, ∀ name ∈ numberNames,
        ∀ text ∈ e.attribute? name, text.length ≤ 2 := by decide +kernel
    intro e he name hname text htext
    exact Nat.le_trans (hshort e he name hname text htext) (by decide)
  obtain ⟨hanalyses, -, -⟩ := analyzeFile_of_normalize hnormal hwritable
  exact ⟨hkeys, hnormal, hwritable, hanalyses _ _ _ _ hkeys, by decide +kernel⟩

end Kotlin
end FeatureCensus
