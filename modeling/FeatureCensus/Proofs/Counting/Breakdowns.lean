import FeatureCensus.Proofs.Counting.Entries

/-!
# Breakdowns

Many Kotlin counters count a part of what another one counts.  Every rule adds to the whole
before it adds to a part, and to no part more than once, so that at any time during an analysis
the parts do not exceed the whole.  This holds wherever an analysis ends early.

Main results:

- Theorem {lit}`Kotlin.Breakdown.Holds.append`: what holds of findings holds of them in a row.
- Theorem {lit}`Kotlin.holds_rules`: the breakdowns hold of what a rule finds at an element.
- Theorem {lit}`Kotlin.parts_le_whole`: the breakdowns hold after any analyses.
-/

namespace FeatureCensus
namespace Kotlin

open Syntax Text

/-! ## Breakdowns of findings -/

/-- The key of a counter with the keys of others that count parts of the same.  Together the
parts are no more than the whole. -/
structure Breakdown where
  whole : String
  parts : List String
  deriving DecidableEq, Repr, Inhabited

/-- The breakdowns of the Kotlin counters. -/
def breakdowns : List Breakdown :=
  [⟨"classes", ["inner_classes"]⟩,
    ⟨"inner_classes", ["inner_classes_with_outer_type_parameters"]⟩,
    ⟨"classes", ["primary_constructor_visibility"]⟩,
    ⟨"classes", ["enums"]⟩,
    ⟨"enums", ["enums_with_constructor_parameters"]⟩,
    ⟨"enums", ["enums_with_entries_and_members_mixed"]⟩,
    ⟨"enum_entries", ["enum_entries_with_body"]⟩,
    ⟨"objects", ["top_level_objects"]⟩,
    ⟨"objects", ["companion_objects"]⟩,
    ⟨"functions", ["inline_functions"]⟩,
    ⟨"functions", ["extension_functions"]⟩,
    ⟨"extension_functions", ["extension_functions_in_classes"]⟩,
    ⟨"lambdas", ["lambdas_with_declared_return_type"]⟩,
    ⟨"type_parameters", ["type_parameters_with_variance"]⟩,
    ⟨"type_arguments", ["type_arguments_with_variance", "type_arguments_with_star"]⟩]

/-- How often findings add to the counters of some keys. -/
def additions (keys : List String) (findings : List Finding) : Nat :=
  (keys.map fun key => findings.count (.count key)).sum

@[simp]
theorem additions_nil (keys : List String) : additions keys [] = 0 := by
  simp [additions]

@[simp]
theorem additions_append (keys : List String) (first second : List Finding) :
    additions keys (first ++ second) = additions keys first + additions keys second := by
  simp [additions, List.sum_map_add]

theorem additions_cons (keys : List String) (finding : Finding) (rest : List Finding) :
    additions keys (finding :: rest) = additions keys [finding] + additions keys rest :=
  additions_append keys [finding] rest

theorem additions_le_of_sublist {keys : List String} {some all : List Finding}
    (h : some.Sublist all) : additions keys some ≤ additions keys all :=
  List.sum_le_sum fun key _ => h.count_le (.count key)

theorem additions_eq_zero {keys : List String} {findings : List Finding}
    (h : ∀ key ∈ keys, .count key ∉ findings) : additions keys findings = 0 := by
  rw [additions, List.sum_eq_zero_iff]
  intro n hn
  obtain ⟨key, hkey, rfl⟩ := List.mem_map.1 hn
  exact List.count_eq_zero.2 (h key hkey)

theorem additions_count (keys : List String) (key : String) :
    additions keys [.count key] = keys.count key := by
  unfold additions
  induction keys with
  | nil => rfl
  | cons first rest ih =>
    rw [List.map_cons, List.sum_cons, ih, List.count_cons, Nat.add_comm]
    by_cases h : key = first
    · simp [h]
    · have hne : ¬ first = key := fun heq => h heq.symm
      simp [h, hne]

@[simp]
theorem additions_count_cons (keys : List String) (key : String) (rest : List Finding) :
    additions keys (.count key :: rest) = keys.count key + additions keys rest := by
  rw [additions_cons, additions_count]

@[simp]
theorem additions_when (keys : List String) (condition : Bool) (findings : List Finding) :
    additions keys (Finding.when condition findings) =
      if condition then additions keys findings else 0 := by
  cases condition <;> simp [Finding.when]

theorem additions_malformed (keys : List String) (error : IntegerError) :
    additions keys [.malformed error] = 0 :=
  additions_eq_zero fun key _ => by simp

@[simp]
theorem additions_whenOk (keys : List String) (condition : Except IntegerError Bool)
    (findings : List Finding) :
    additions keys (Finding.whenOk condition findings) =
      if condition.toOption.getD false then additions keys findings else 0 := by
  cases condition with
  | error e => exact additions_malformed keys e
  | ok holds => exact additions_when keys holds findings

namespace Breakdown

/-- Whether findings, wherever they end early, add to the parts no more often than to the
whole. -/
def Holds (b : Breakdown) (findings : List Finding) : Prop :=
  ∀ initial, initial <+: findings → additions b.parts initial ≤ additions [b.whole] initial

namespace Holds

variable {b : Breakdown} {findings : List Finding}

theorem le (h : b.Holds findings) : additions b.parts findings ≤ additions [b.whole] findings :=
  h findings List.prefix_rfl

theorem of_initial (h : b.Holds findings) {initial : List Finding}
    (hinitial : initial <+: findings) : b.Holds initial :=
  fun earlier hearlier => h earlier (hearlier.trans hinitial)

theorem of_noParts (h : ∀ key ∈ b.parts, .count key ∉ findings) : b.Holds findings := by
  intro initial hinitial
  rw [additions_eq_zero fun key hkey hmem => h key hkey (hinitial.subset hmem)]
  exact Nat.zero_le _

/-- What holds of findings holds of them in a row. -/
theorem append {first second : List Finding} (hfirst : b.Holds first) (hsecond : b.Holds second) :
    b.Holds (first ++ second) := by
  intro initial hinitial
  obtain ⟨left, hleft⟩ := hinitial
  rcases List.append_eq_append_iff.1 hleft with ⟨cut, rfl, -⟩ | ⟨later, rfl, rfl⟩
  · exact hfirst initial (List.prefix_append initial cut)
  · rw [additions_append, additions_append]
    exact Nat.add_le_add hfirst.le (hsecond later (List.prefix_append later left))

theorem flatMap {α : Type} {items : List α} {f : α → List Finding}
    (h : ∀ item ∈ items, b.Holds (f item)) : b.Holds (items.flatMap f) := by
  induction items with
  | nil => exact of_noParts fun _ _ => List.not_mem_nil
  | cons item rest ih =>
    rw [List.flatMap_cons]
    exact (h item List.mem_cons_self).append
      (ih fun other hother => h other (List.mem_cons_of_mem item hother))

/-- The whole may be followed by one of its parts. -/
theorem cons {rest : List Finding} (hone : additions b.parts rest ≤ 1)
    (hwhole : b.whole ∉ b.parts) : b.Holds (.count b.whole :: rest) := by
  intro initial hinitial
  cases initial with
  | nil => simp
  | cons finding later =>
    obtain ⟨rfl, hlater⟩ := List.cons_prefix_cons.1 hinitial
    have hparts : additions b.parts later ≤ additions b.parts rest :=
      additions_le_of_sublist hlater.sublist
    rw [additions_count_cons, additions_count_cons, List.count_eq_zero.2 hwhole,
      List.count_singleton_self]
    omega

theorem when (h : b.Holds findings) (condition : Bool) :
    b.Holds (Finding.when condition findings) := by
  cases condition with
  | true => exact h
  | false => exact of_noParts fun _ _ => List.not_mem_nil

end Holds
end Breakdown

/-! ## What the rules find -/

/-- Findings for the counters of some keys have no parts but those among the keys. -/
theorem holds_breakdowns (keys : List String) (own : List Breakdown) {findings : List Finding}
    (hown : breakdowns.filter (fun b => b.parts.any (keys.contains ·)) = own)
    (hkeys : ∀ key, .count key ∈ findings → key ∈ keys) (h : ∀ b ∈ own, b.Holds findings) :
    ∀ b ∈ breakdowns, b.Holds findings := by
  intro b hb
  by_cases hparts : b.parts.any (keys.contains ·) = true
  · exact h b (hown ▸ List.mem_filter.2 ⟨hb, hparts⟩)
  · refine .of_noParts fun key hkey hmem => hparts ?_
    exact List.any_eq_true.2 ⟨key, hkey, by simpa using hkeys key hmem⟩

theorem mem_when {finding : Finding} {condition : Bool} {findings : List Finding} :
    finding ∈ Finding.when condition findings ↔ condition = true ∧ finding ∈ findings := by
  cases condition <;> simp [Finding.when]

theorem count_mem_whenOk {key : String} {condition : Except IntegerError Bool}
    {findings : List Finding} :
    .count key ∈ Finding.whenOk condition findings ↔
      condition.toOption.getD false = true ∧ .count key ∈ findings := by
  cases condition with
  | error e => simp [Finding.whenOk, Except.toOption]
  | ok holds => exact mem_when

theorem ite_one_le (condition : Prop) [Decidable condition] : (if condition then 1 else 0) ≤ 1 := by
  split <;> decide

/-- An inner class is counted before its outer type parameters are looked at. -/
theorem holds_innerFindings (site : Site) :
    Breakdown.Holds ⟨"inner_classes", ["inner_classes_with_outer_type_parameters"]⟩
      (innerFindings site) :=
  .cons (by simp [ite_one_le]) (by decide)

/-- An enum class is counted before what is special about it. -/
theorem holds_enumFindings (site : Site) {part : String}
    (h : part ∈ ["enums_with_constructor_parameters", "enums_with_entries_and_members_mixed"]) :
    Breakdown.Holds ⟨"enums", [part]⟩ (enumFindings site) := by
  simp only [List.mem_cons, List.not_mem_nil, or_false] at h
  rcases h with rfl | rfl <;> exact .cons (by simp [ite_one_le]) (by decide)

/-- A class is counted before what it is besides. -/
theorem holds_classFindings_of_le {site : Site} {part : String}
    (h : additions [part] (classFindings site) ≤ 1) (hne : part ≠ "classes") :
    Breakdown.Holds ⟨"classes", [part]⟩ (classFindings site) := by
  refine .cons (Nat.le_trans ?_ h) (by simpa using hne.symm)
  exact additions_le_of_sublist (List.sublist_cons_self _ _)

theorem holds_classFindings_inner (site : Site) :
    Breakdown.Holds ⟨"inner_classes", ["inner_classes_with_outer_type_parameters"]⟩
      (classFindings site) := by
  have hbase : Breakdown.Holds ⟨"inner_classes", ["inner_classes_with_outer_type_parameters"]⟩
      [.count "classes"] :=
    .of_noParts (by decide)
  refine hbase.append
    (.append (.append ((holds_innerFindings site).when _) (.of_noParts ?_)) (.of_noParts ?_))
  · simp [mem_when]
  · simp [enumFindings, mem_when, count_mem_whenOk]

theorem holds_classFindings_enum (site : Site) {part : String}
    (h : part ∈ ["enums_with_constructor_parameters", "enums_with_entries_and_members_mixed"]) :
    Breakdown.Holds ⟨"enums", [part]⟩ (classFindings site) := by
  have hnone : ∀ key ∈ [part], .count key ∉ .count "classes" ::
      (Finding.when (site.element.isSet "inner") (innerFindings site) ++
        Finding.when (hasConstructorVisibility site.element)
          [.count "primary_constructor_visibility"]) := by
    simp only [List.mem_cons, List.not_mem_nil, or_false] at h
    rcases h with rfl | rfl <;> simp [innerFindings, mem_when, count_mem_whenOk]
  exact .append (.of_noParts hnone) ((holds_enumFindings site h).when _)

theorem holds_classFindings (site : Site) :
    ∀ b ∈ breakdowns, b.Holds (classFindings site) := by
  refine holds_breakdowns
    ["classes", "inner_classes", "inner_classes_with_outer_type_parameters",
      "primary_constructor_visibility", "enums", "enums_with_constructor_parameters",
      "enums_with_entries_and_members_mixed"]
    [⟨"classes", ["inner_classes"]⟩,
      ⟨"inner_classes", ["inner_classes_with_outer_type_parameters"]⟩,
      ⟨"classes", ["primary_constructor_visibility"]⟩,
      ⟨"classes", ["enums"]⟩,
      ⟨"enums", ["enums_with_constructor_parameters"]⟩,
      ⟨"enums", ["enums_with_entries_and_members_mixed"]⟩] rfl ?_ ?_
  · intro key hkey
    simp only [classFindings, innerFindings, enumFindings, List.mem_cons, List.mem_append,
      mem_when, count_mem_whenOk, Finding.count.injEq] at hkey ⊢
    grind
  have hone : ∀ part ∈ ["inner_classes", "primary_constructor_visibility", "enums"],
      additions [part] (classFindings site) ≤ 1 := by
    simp [classFindings, innerFindings, enumFindings, ite_one_le]
  simp only [List.forall_mem_cons]
  exact ⟨holds_classFindings_of_le (hone _ (by decide)) (by decide),
    holds_classFindings_inner site,
    holds_classFindings_of_le (hone _ (by decide)) (by decide),
    holds_classFindings_of_le (hone _ (by decide)) (by decide),
    holds_classFindings_enum site (by decide), holds_classFindings_enum site (by decide), by simp⟩

theorem holds_enumEntryFindings (site : Site) :
    ∀ b ∈ breakdowns, b.Holds (enumEntryFindings site) := by
  refine holds_breakdowns ["enum_entries", "enum_entries_with_body"]
    [⟨"enum_entries", ["enum_entries_with_body"]⟩] rfl ?_ ?_
  · simp [enumEntryFindings, mem_when]
  · simp only [List.forall_mem_singleton]
    exact .cons (by simp [ite_one_le]) (by decide)

theorem holds_objectFindings (site : Site) :
    ∀ b ∈ breakdowns, b.Holds (objectFindings site) := by
  refine holds_breakdowns ["objects", "top_level_objects", "companion_objects"]
    [⟨"objects", ["top_level_objects"]⟩, ⟨"objects", ["companion_objects"]⟩] rfl ?_ ?_
  · intro key hkey
    simp only [objectFindings, List.mem_cons, List.mem_append, mem_when,
      Finding.count.injEq] at hkey ⊢
    grind
  · simp only [List.forall_mem_cons]
    exact ⟨.cons (by simp [ite_one_le]) (by decide), .cons (by simp [ite_one_le]) (by decide),
      by simp⟩

/-- An extension function is counted before it is counted as one inside a class. -/
theorem holds_functionFindings (site : Site) :
    ∀ b ∈ breakdowns, b.Holds (functionFindings site) := by
  refine holds_breakdowns
    ["functions", "inline_functions", "extension_functions", "extension_functions_in_classes"]
    [⟨"functions", ["inline_functions"]⟩, ⟨"functions", ["extension_functions"]⟩,
      ⟨"extension_functions", ["extension_functions_in_classes"]⟩] rfl ?_ ?_
  · intro key hkey
    simp only [functionFindings, List.mem_cons, List.mem_append, mem_when,
      Finding.count.injEq] at hkey ⊢
    grind
  have hextension : Breakdown.Holds ⟨"extension_functions", ["extension_functions_in_classes"]⟩
      (.count "extension_functions" ::
        Finding.when (isInsideClass site.ancestors) [.count "extension_functions_in_classes"]) :=
    .cons (by simp [ite_one_le]) (by decide)
  simp only [List.forall_mem_cons]
  refine ⟨.cons (by simp [ite_one_le]) (by decide), .cons (by simp [ite_one_le]) (by decide),
    ?_, by simp⟩
  have hbase : Breakdown.Holds ⟨"extension_functions", ["extension_functions_in_classes"]⟩
      [.count "functions"] :=
    .of_noParts (by decide)
  refine hbase.append (.append (.of_noParts ?_) (hextension.when _))
  simp [mem_when]

theorem holds_lambdaFindings (site : Site) :
    ∀ b ∈ breakdowns, b.Holds (lambdaFindings site) := by
  refine holds_breakdowns ["lambdas", "lambdas_with_declared_return_type"]
    [⟨"lambdas", ["lambdas_with_declared_return_type"]⟩] rfl ?_ ?_
  · simp [lambdaFindings, mem_when]
  · simp only [List.forall_mem_singleton]
    exact .cons (by simp [ite_one_le]) (by decide)

theorem holds_typeParameterFindings (site : Site) :
    ∀ b ∈ breakdowns, b.Holds (typeParameterFindings site) := by
  refine holds_breakdowns ["type_parameters", "type_parameters_with_variance"]
    [⟨"type_parameters", ["type_parameters_with_variance"]⟩] rfl ?_ ?_
  · simp [typeParameterFindings, mem_when]
  · simp only [List.forall_mem_singleton]
    exact .cons (by simp [ite_one_le]) (by decide)

/-- A projection is not both a variance and a star. -/
theorem holds_typeArgumentFindings (site : Site) :
    ∀ b ∈ breakdowns, b.Holds (typeArgumentFindings site) := by
  refine holds_breakdowns
    ["type_arguments", "type_arguments_with_variance", "type_arguments_with_star"]
    [⟨"type_arguments", ["type_arguments_with_variance", "type_arguments_with_star"]⟩] rfl ?_ ?_
  · intro key hkey
    simp only [typeArgumentFindings, List.mem_cons, List.mem_append, mem_when,
      Finding.count.injEq] at hkey ⊢
    grind
  · simp only [List.forall_mem_singleton]
    refine .cons ?_ (by decide)
    cases hstar : site.element.attribute? "projection" == some "*" with
    | false => simp [ite_one_le]
    | true =>
      have hvariance : hasVariance (site.element.attribute? "projection") = false := by
        rw [eq_of_beq hstar]
        decide
      simp [hvariance]

/-- Counters that are no parts take part in no breakdown but as a whole. -/
theorem holds_of_noPartKeys {findings : List Finding} (keys : List String)
    (hown : breakdowns.filter (fun b => b.parts.any (keys.contains ·)) = [])
    (hkeys : ∀ key, .count key ∈ findings → key ∈ keys) : ∀ b ∈ breakdowns, b.Holds findings :=
  holds_breakdowns keys [] hown hkeys (by simp)

theorem holds_counting (name kind : String) (keys : List String) (site : Site)
    (hown : breakdowns.filter (fun b => b.parts.any (keys.contains ·)) = []) :
    ∀ b ∈ breakdowns, b.Holds ((Rule.counting name kind keys).findings site) :=
  holds_of_noPartKeys keys hown (by simp [Rule.counting])

theorem holds_jumpFindings (site : Site) : ∀ b ∈ breakdowns, b.Holds (jumpFindings site) := by
  refine holds_of_noPartKeys ["qualified_break_continue", "return_with_label"] rfl ?_
  intro key hkey
  simp only [jumpFindings, mem_when] at hkey
  split at hkey <;> simp_all [mem_when]

theorem holds_whenFindings (site : Site) : ∀ b ∈ breakdowns, b.Holds (whenFindings site) := by
  refine holds_of_noPartKeys ["when_with_expression", "when_without_expression"] rfl ?_
  simp only [whenFindings]
  split <;> simp

theorem holds_propertyFindings (site : Site) :
    ∀ b ∈ breakdowns, b.Holds (propertyFindings site) := by
  refine holds_of_noPartKeys ["vars", "vals"] rfl ?_
  simp only [propertyFindings]
  split <;> simp

theorem holds_rangeFindings (site : Site) : ∀ b ∈ breakdowns, b.Holds (rangeFindings site) :=
  holds_of_noPartKeys ["range_operators"] rfl (by simp [rangeFindings, mem_when])

theorem holds_castFindings (site : Site) : ∀ b ∈ breakdowns, b.Holds (castFindings site) :=
  holds_of_noPartKeys ["as_casts"] rfl (by simp [castFindings, mem_when])

/-- The breakdowns hold of what a rule finds at an element. -/
theorem holds_rules (site : Site) :
    ∀ rule ∈ rules, ∀ b ∈ breakdowns, b.Holds (rule.findings site) := by
  have hcounting := fun name kind keys => holds_counting name kind keys site
  simp only [rules, List.forall_mem_cons]
  exact ⟨hcounting _ _ _ rfl, hcounting _ _ _ rfl, holds_classFindings site,
    holds_enumEntryFindings site, holds_objectFindings site, holds_functionFindings site,
    holds_lambdaFindings site, hcounting _ _ _ rfl, holds_jumpFindings site,
    hcounting _ _ _ rfl, hcounting _ _ _ rfl, holds_whenFindings site, hcounting _ _ _ rfl,
    holds_propertyFindings site, holds_typeParameterFindings site,
    holds_typeArgumentFindings site, holds_rangeFindings site, holds_castFindings site,
    hcounting _ _ _ rfl, by simp⟩

/-- The breakdowns hold of what the rules find in a tree. -/
theorem holds_findings (tree : ElementTree) {b : Breakdown} (hb : b ∈ breakdowns) :
    b.Holds ((Analysis.findings (Rule.dispatchTable rules) tree).map (·.2)) := by
  have hfindings : (Analysis.findings (Rule.dispatchTable rules) tree).map (·.2) =
      tree.visits.flatMap (Analysis.findingsAt (Rule.dispatchTable rules)) := by
    simp [Analysis.findings, List.map_flatMap, Function.comp_def]
  rw [hfindings]
  refine .flatMap fun site _ => ?_
  rw [Analysis.findingsAt, Rule.groupFor_dispatchTable]
  exact .flatMap fun rule hrule => holds_rules site rule (List.mem_filter.1 hrule).1 b hb

/-! ## What analyses enter -/

/-- What was added by entries. -/
def added (entries : List Entry) : List Finding :=
  entries.map (Finding.count ·.key)

theorem additions_added (keys : List String) (entries : List Entry) :
    additions keys (added entries) =
      (keys.map fun key => (Entry.placesFor key entries).length).sum := by
  have hcount : ∀ key, (added entries).count (.count key) =
      (Entry.placesFor key entries).length := by
    intro key
    rw [added, Entry.placesFor, List.length_map, ← List.countP_eq_length_filter, List.count,
      List.countP_map]
    congr 1
    funext entry
    rw [Function.comp_apply, Bool.eq_iff_iff, beq_iff_eq, beq_iff_eq, Finding.count.injEq]
  simp only [additions, hcount]

/-- The breakdowns hold of the entries of an analysis, even if it ends early. -/
theorem holds_entries (task : Analysis.Task) (keys : List String) {b : Breakdown}
    (hb : b ∈ breakdowns) : b.Holds (added (task.entries rules keys)) :=
  (holds_findings task.file.tree hb).of_initial (Analysis.map_entriesOf_prefix _ _ _ _)

/-- There are no more entries for the parts than for the whole. -/
theorem sum_parts_le (tasks : List Analysis.Task) (keys : List String) {b : Breakdown}
    (hb : b ∈ breakdowns) :
    (b.parts.map fun key =>
        (Entry.placesFor key (Analysis.entriesOfAll rules keys tasks)).length).sum ≤
      (Entry.placesFor b.whole (Analysis.entriesOfAll rules keys tasks)).length := by
  have hall : b.Holds (added (Analysis.entriesOfAll rules keys tasks)) := by
    rw [added, Analysis.entriesOfAll, List.map_flatMap]
    exact .flatMap fun task _ => holds_entries task keys hb
  have hle := hall.le
  rwa [additions_added, additions_added, List.map_singleton, List.sum_singleton] at hle

/-- A project with an entry for a part has one for the whole. -/
theorem exists_whole_of_part {tasks : List Analysis.Task} {keys : List String} {b : Breakdown}
    (hb : b ∈ breakdowns) {key : String} (hkey : key ∈ b.parts) {place : Usage}
    (hplace : place ∈ Entry.placesFor key (Analysis.entriesOfAll rules keys tasks)) :
    ∃ other ∈ Entry.placesFor b.whole (Analysis.entriesOfAll rules keys tasks),
      other.project = place.project := by
  obtain ⟨entry, hentry, rfl⟩ := List.mem_map.1 hplace
  obtain ⟨hmade, hentrykey⟩ := List.mem_filter.1 hentry
  obtain rfl := eq_of_beq hentrykey
  obtain ⟨task, htask, hmade⟩ := List.mem_flatMap.1 hmade
  -- The analysis that made the entry has made one for the whole before.
  have hpart : 0 < additions b.parts (added (task.entries rules keys)) := by
    rw [Nat.pos_iff_ne_zero]
    intro hzero
    have hcount := List.sum_eq_zero_iff.1 hzero _ (List.mem_map_of_mem hkey)
    exact List.count_eq_zero.1 hcount (List.mem_map_of_mem hmade)
  have hwhole := Nat.lt_of_lt_of_le hpart (holds_entries task keys hb).le
  rw [additions_added, List.map_singleton, List.sum_singleton, List.length_pos_iff_exists_mem]
    at hwhole
  obtain ⟨other, hother⟩ := hwhole
  obtain ⟨whole, hwhole, rfl⟩ := List.mem_map.1 hother
  obtain ⟨hwhole, hwholekey⟩ := List.mem_filter.1 hwhole
  refine ⟨whole.place, List.mem_map_of_mem (List.mem_filter.2 ⟨?_, hwholekey⟩), ?_⟩
  · exact List.mem_flatMap.2 ⟨task, htask, hwhole⟩
  · rw [Analysis.project_of_mem_entriesOf hwhole, Analysis.project_of_mem_entriesOf hmade]

/-- How much the counter of a key has counted, if there is one. -/
def countOf (s : Session) (key : String) : Nat :=
  ((s.counter? key).map (·.count)).getD 0

/-- After analyses each declared counter is in step with the entries for its key. -/
theorem exists_tallies_of_mem_keys (statsOnly : Bool) (tasks : List Analysis.Task) {key : String}
    (h : key ∈ catalog.keys) :
    ∃ c, (Analysis.analyzeAll rules (.ofSpecs catalog statsOnly) tasks).counter? key = some c ∧
      c.Tallies (Entry.placesFor key (Analysis.entriesOfAll rules catalog.keys tasks)) := by
  obtain ⟨spec, hspec, rfl⟩ := List.mem_map.1 h
  obtain ⟨c, hc, -, htallies⟩ :=
    Analysis.exists_tallies nodup_keys_catalog statsOnly rules tasks hspec
  exact ⟨c, hc, htallies⟩

theorem countOf_analyzeAll (statsOnly : Bool) (tasks : List Analysis.Task) {key : String}
    (h : key ∈ catalog.keys) :
    countOf (Analysis.analyzeAll rules (.ofSpecs catalog statsOnly) tasks) key =
      (Entry.placesFor key (Analysis.entriesOfAll rules catalog.keys tasks)).length := by
  obtain ⟨c, hc, htallies⟩ := exists_tallies_of_mem_keys statsOnly tasks h
  rw [countOf, hc, Option.map_some, Option.getD_some, htallies.count]

/-- All keys of breakdowns are declared. -/
theorem declared_breakdowns :
    ∀ b ∈ breakdowns, b.whole ∈ catalog.keys ∧ ∀ key ∈ b.parts, key ∈ catalog.keys := by
  decide

/-- After any analyses of any trees, also ones that end early, the parts of each breakdown are
together no more than the whole, and each project of a part is one of the whole. -/
theorem parts_le_whole (statsOnly : Bool) (tasks : List Analysis.Task) :
    ∃ s, Session.ofCatalog catalog statsOnly = .ok s ∧
      let t := Analysis.analyzeAll rules s tasks
      ∀ b ∈ breakdowns, ∃ whole, t.counter? b.whole = some whole ∧
        (b.parts.map (countOf t)).sum ≤ whole.count ∧
        ∀ key ∈ b.parts, ∃ part, t.counter? key = some part ∧
          part.projects ⊆ whole.projects := by
  refine ⟨_, Session.ofCatalog_eq_ok nodup_keys_catalog statsOnly, fun b hb => ?_⟩
  obtain ⟨hwholekey, hpartkeys⟩ := declared_breakdowns b hb
  obtain ⟨whole, hwhole, hwholetallies⟩ := exists_tallies_of_mem_keys statsOnly tasks hwholekey
  refine ⟨whole, hwhole, ?_, fun key hkey => ?_⟩
  · have hcounts := List.map_congr_left fun key hkey =>
      countOf_analyzeAll statsOnly tasks (hpartkeys key hkey)
    rw [hcounts, hwholetallies.count]
    exact sum_parts_le tasks catalog.keys hb
  · obtain ⟨part, hpart, hparttallies⟩ :=
      exists_tallies_of_mem_keys statsOnly tasks (hpartkeys key hkey)
    refine ⟨part, hpart, fun project hproject => ?_⟩
    obtain ⟨place, hplace, rfl⟩ := (hparttallies.mem_projects project).1 hproject
    exact (hwholetallies.mem_projects place.project).2 (exists_whole_of_part hb hkey hplace)

/-- A file with an enum class whose number of constructor parameters is malformed. -/
def faultyEnumFile : ParsedFile where
  tree :=
    .node ⟨.known .file, [("start", "0")]⟩
      [.node ⟨.known .classDeclaration, [("enum", "true"), ("start", "0")]⟩ [],
        .node ⟨.known .classDeclaration, [("enum", "true"), ("constructor_parameters", "two")]⟩ []]
  path := some "Faulty.kt"
  lines := ⟨#[0]⟩

/-- The analysis ends early in the second enum class, which is counted as a class before. -/
theorem parts_le_whole_faultyEnumFile :
    ∃ s, Session.ofCatalog catalog true = .ok s ∧
      let t := Analysis.analyzeAll rules s [⟨.text "p", faultyEnumFile⟩]
      countOf t "enums" = 2 ∧
      (∃ whole, t.counter? "classes" = some whole ∧ 2 ≤ whole.count) ∧
      ∃ whole, t.counter? "enums" = some whole ∧
        countOf t "enums_with_constructor_parameters" ≤ whole.count := by
  obtain ⟨s, hs, hall⟩ := parts_le_whole true [⟨.text "p", faultyEnumFile⟩]
  obtain ⟨classes, hclasses, hsum, -⟩ := hall ⟨"classes", ["enums"]⟩ (by decide)
  obtain ⟨enums, henums, hparts, -⟩ :=
    hall ⟨"enums", ["enums_with_constructor_parameters"]⟩ (by decide)
  obtain rfl := Except.ok.inj hs
  have htwo : countOf (Analysis.analyzeAll rules (.ofSpecs catalog true)
      [⟨.text "p", faultyEnumFile⟩]) "enums" = 2 := by
    decide +kernel
  refine ⟨_, rfl, htwo, ⟨classes, hclasses, ?_⟩, enums, henums, by simpa using hparts⟩
  rw [← htwo]
  simpa using hsum

end Kotlin
end FeatureCensus
