import FeatureCensus.Proofs.Counting.Features
import FeatureCensus.Proofs.Positions
import Mathlib.Data.List.Basic

/-!
# What recording adds

Findings that can all be recorded are added to the counters of a session one by one.  A
counter takes the occurrences of its key, in the order in which they are found, and nothing
else in the session changes.

Main results:

- Theorem {lit}`Analysis.recordAll_of_recordable`: each counter takes the places of its findings.
- Theorem {lit}`Kotlin.placesOf_findings`: the places of a Kotlin counter are those at which its
  feature occurs.
-/

namespace FeatureCensus

open Syntax Text

/-! ## Counters -/

namespace Counter

/-- Adds occurrences at places one after the other. -/
def incrementAll (c : Counter) (places : List Usage) : Counter :=
  places.foldl increment c

@[simp]
theorem incrementAll_nil (c : Counter) : c.incrementAll [] = c := rfl

@[simp]
theorem incrementAll_cons (c : Counter) (place : Usage) (rest : List Usage) :
    c.incrementAll (place :: rest) = (c.increment place).incrementAll rest := rfl

/-- That a counter has taken places of one project: it counts them, holds the project if there
are any, and keeps them at the end of its places if it tracks. -/
structure Takes (before after : Counter) (project : PlaceName) (places : List Usage) : Prop where
  label : after.label = before.label
  tracks : after.tracks = before.tracks
  count : after.count = before.count + places.length
  mem_projects : ∀ other, other ∈ after.projects ↔
    other ∈ before.projects ∨ other = project ∧ 0 < places.length
  nodup_projects : before.projects.Nodup → after.projects.Nodup
  usages : after.usages.toList = before.usages.toList ++ if before.tracks then places else []

theorem nodup_projects_increment {c : Counter} (h : c.projects.Nodup) (place : Usage) :
    (c.increment place).projects.Nodup := by
  by_cases hmem : place.project ∈ c.projects
  · simpa [increment, hmem] using h
  · have hprojects : (c.increment place).projects = c.projects ++ [place.project] := by
      simp [increment, hmem]
    rw [hprojects, List.nodup_append]
    refine ⟨h, List.pairwise_singleton _ _, ?_⟩
    rintro other hother _ hplace rfl
    exact hmem (List.mem_singleton.1 hplace ▸ hother)

/-- A counter takes the places that are added to it. -/
theorem takes_incrementAll (c : Counter) {project : PlaceName} {places : List Usage}
    (h : ∀ place ∈ places, place.project = project) :
    c.Takes (c.incrementAll places) project places := by
  induction places generalizing c with
  | nil => constructor <;> simp
  | cons place rest ih =>
    have hproject := h place List.mem_cons_self
    have hrest := ih (c.increment place) fun other hother =>
      h other (List.mem_cons_of_mem place hother)
    refine ⟨hrest.label, hrest.tracks, ?_, ?_, ?_, ?_⟩
    · rw [incrementAll_cons, hrest.count, count_increment, List.length_cons]
      omega
    · intro other
      rw [incrementAll_cons, hrest.mem_projects, mem_projects_increment, hproject]
      simp only [List.length_cons, Nat.zero_lt_succ, and_true]
      exact ⟨fun hor => hor.elim id fun hand => Or.inr hand.1, Or.inl⟩
    · intro hnodup
      exact hrest.nodup_projects (nodup_projects_increment hnodup place)
    · rw [incrementAll_cons, hrest.usages, tracks_increment]
      by_cases htracks : c.tracks = true
      · simp [usages_increment_of_tracks htracks, htracks]
      · simp only [Bool.not_eq_true] at htracks
        simp [usages_increment_of_not_tracks htracks, htracks]

end Counter

/-! ## Sessions -/

namespace Session

/-- The counter of a known key can be added to. -/
theorem exists_increment_of_mem_keys {s : Session} {key : String} (h : key ∈ s.keys)
    (place : Usage) : ∃ t, s.increment? key place = some t := by
  have hupdate : ∀ counters : List (String × Counter), key ∈ counters.map (·.1) →
      ∃ updated, updateCounter? (·.increment place) key counters = some updated := by
    intro counters
    induction counters with
    | nil => simp
    | cons entry rest ih =>
      intro hmem
      obtain ⟨k, c⟩ := entry
      rw [updateCounter?]
      by_cases hk : key = k
      · exact ⟨_, if_pos (by simp [hk])⟩
      · obtain ⟨updated, hupdated⟩ := ih (by simpa [hk] using hmem)
        exact ⟨(k, c) :: updated, by simp [hk, hupdated]⟩
  obtain ⟨updated, hupdated⟩ := hupdate s.counters h
  exact ⟨{ s with counters := updated }, by simp [increment?, hupdated]⟩

/-- An increment leaves the totals alone. -/
theorem totals_increment {s t : Session} {key : String} {place : Usage}
    (h : s.increment? key place = some t) :
    t.repositories = s.repositories ∧ t.files = s.files ∧ t.lines = s.lines := by
  obtain ⟨counters, -, rfl⟩ := Option.map_eq_some_iff.1 h
  exact ⟨rfl, rfl, rfl⟩

/-- The counter of a known key is there. -/
theorem exists_counter_of_mem_keys {s : Session} {key : String} (h : key ∈ s.keys) :
    ∃ c, s.counter? key = some c := by
  obtain ⟨entry, hentry, rfl⟩ := List.mem_map.1 h
  exact Option.isSome_iff_exists.1
    (List.lookup_isSome_iff.2 ⟨entry, hentry, beq_self_eq_true entry.1⟩)

end Session

/-! ## Recording -/

namespace Analysis

/-- Whether a finding can be recorded: it adds to a counter with a known key, and the place
where its element begins is told by an integer. -/
def IsRecordable (keys : List String) (entry : Element × Finding) : Prop :=
  ∃ key ∈ keys, entry.2 = .count key ∧ entry.1.HasInteger "start"

/-- The place of an element. -/
def placeOf (project : PlaceName) (file : ParsedFile) (e : Element) : Usage :=
  ⟨project, .ofText? file.path, file.lines.lineNumber (e.integer "start")⟩

/-- The places of the findings that add to a counter, in their order. -/
def placesOf (project : PlaceName) (file : ParsedFile) (key : String)
    (findings : List (Element × Finding)) : List Usage :=
  (findings.filter (·.2 == .count key)).map fun entry => placeOf project file entry.1

theorem lineOf_eq_ok {e : Element} (h : e.HasInteger "start") (lines : LineIndex) :
    lineOf lines e = .ok (lines.lineNumber (e.integer "start")) := by
  have hnumber := Element.number_eq_ok h
  unfold Element.number at hnumber
  unfold lineOf
  cases hstart : e.attribute? "start" with
  | none =>
    simp only [hstart, Except.ok.injEq] at hnumber
    simp [← hnumber]
  | some text =>
    simp only [hstart] at hnumber
    simp [hnumber, Except.map]

/-- One recorded finding is added to its counter, and nothing else changes. -/
theorem record_of_recordable (project : PlaceName) (file : ParsedFile) {s : Session}
    {entry : Element × Finding} (h : IsRecordable s.keys entry) :
    ∃ t, record project file s entry = .ok t ∧ t.keys = s.keys ∧
      (t.repositories = s.repositories ∧ t.files = s.files ∧ t.lines = s.lines) ∧
      ∀ key, t.counter? key =
        (s.counter? key).map (·.incrementAll (placesOf project file key [entry])) := by
  obtain ⟨e, finding⟩ := entry
  obtain ⟨key, hkey, rfl, hstart⟩ := h
  obtain ⟨t, ht⟩ := Session.exists_increment_of_mem_keys hkey (placeOf project file e)
  refine ⟨t, ?_, Session.keys_increment ht, Session.totals_increment ht, fun other => ?_⟩
  · simp only [record, lineOf_eq_ok hstart]
    rw [placeOf] at ht
    rw [ht]
  · rw [Session.counter?_increment ht]
    by_cases hother : other = key
    · subst hother
      simp [placesOf]
    · have hne : (Finding.count key == Finding.count other) = false := by
        simpa using fun heq => hother heq.symm
      simp [placesOf, hother, hne]

/-- Findings that can all be recorded are: each counter takes the places of its findings, and
nothing else changes. -/
theorem recordAll_of_recordable (project : PlaceName) (file : ParsedFile) {s : Session}
    {findings : List (Element × Finding)} (h : ∀ entry ∈ findings, IsRecordable s.keys entry) :
    ∃ t, recordAll project file s findings = (t, none) ∧ t.keys = s.keys ∧
      (t.repositories = s.repositories ∧ t.files = s.files ∧ t.lines = s.lines) ∧
      ∀ key, t.counter? key =
        (s.counter? key).map (·.incrementAll (placesOf project file key findings)) := by
  induction findings generalizing s with
  | nil => exact ⟨s, rfl, rfl, ⟨rfl, rfl, rfl⟩, fun key => by simp [placesOf]⟩
  | cons entry rest ih =>
    obtain ⟨u, hu, hukeys, hutotals, hucounters⟩ :=
      record_of_recordable project file (h entry List.mem_cons_self)
    obtain ⟨t, ht, htkeys, httotals, htcounters⟩ := @ih u fun other hother => by
      rw [hukeys]
      exact h other (List.mem_cons_of_mem entry hother)
    refine ⟨t, ?_, htkeys.trans hukeys, ?_, fun key => ?_⟩
    · rw [recordAll, hu]
      exact ht
    · exact ⟨httotals.1.trans hutotals.1, httotals.2.1.trans hutotals.2.1,
        httotals.2.2.trans hutotals.2.2⟩
    · rw [htcounters, hucounters, Option.map_map]
      have hplaces : placesOf project file key (entry :: rest) =
          placesOf project file key [entry] ++ placesOf project file key rest := by
        simp [placesOf, ← List.map_append, ← List.filter_append]
      simp [hplaces, Function.comp_def, Counter.incrementAll, List.foldl_append]

end Analysis

/-! ## Kotlin files -/

namespace Kotlin

/-- Of features with different keys at most one has a given key. -/
theorem map_filter_of_key {features : List Feature} (h : (features.map (·.key)).Nodup)
    {key : String} {p : Feature → Bool} (hp : ∀ feature, p feature = true → feature.key = key)
    {β : Type} (b : β) :
    (features.filter p).map (fun _ => b) = if features.any p then [b] else [] := by
  induction features with
  | nil => rfl
  | cons feature rest ih =>
    rw [List.map_cons, List.nodup_cons] at h
    by_cases hfeature : p feature = true
    · have hrest : rest.filter p = [] := by
        rw [List.filter_eq_nil_iff]
        intro other hother hsame
        refine h.1 ?_
        rw [hp feature hfeature, ← hp other hsame]
        exact List.mem_map_of_mem hother
      simp [hfeature, hrest]
    · simp [hfeature, ih h.2]

/-- The findings in a tree whose numbers are integers. -/
theorem findings_rules {tree : ElementTree} (h : ∀ e ∈ tree.values, e.HasIntegers) :
    Analysis.findings (Rule.dispatchTable rules) tree =
      tree.visits.flatMap fun site : Site =>
        (features.filter (·.occursAt site)).map fun feature =>
          (site.element, .count feature.key) := by
  have hsite : ∀ site ∈ tree.visits, Analysis.findingsAt (Rule.dispatchTable rules) site =
      (features.filter (·.occursAt site)).map fun feature => .count feature.key := by
    intro site hmem
    obtain ⟨hhere, habove⟩ := Tree.mem_values_of_mem_visits hmem
    exact findingsAt_rules (h _ hhere) fun e he => h e (habove e he)
  rw [Analysis.findings]
  refine List.flatMap_congr fun site hmem => ?_
  rw [hsite site hmem, List.map_map]
  rfl

/-- The places at which the feature of a counter occurs in a file, in document order. -/
def occurrences (project : PlaceName) (file : ParsedFile) (key : String) : List Usage :=
  (file.tree.visits.filter (occursAt key)).map fun site : Site =>
    Analysis.placeOf project file site.element

/-- The places of a counter are those at which its feature occurs. -/
theorem placesOf_findings (project : PlaceName) {file : ParsedFile}
    (h : ∀ e ∈ file.tree.values, e.HasIntegers) (key : String) :
    Analysis.placesOf project file key
        (Analysis.findings (Rule.dispatchTable rules) file.tree) =
      occurrences project file key := by
  have hsite : ∀ site : Site,
      (((features.filter (·.occursAt site)).map fun feature =>
        (site.element, Finding.count feature.key)).filter (·.2 == .count key)).map
          (fun entry => Analysis.placeOf project file entry.1) =
        if occursAt key site then [Analysis.placeOf project file site.element] else [] := by
    intro site
    have hfilter : (((features.filter (·.occursAt site)).map fun feature =>
        (site.element, Finding.count feature.key)).filter (·.2 == .count key)) =
          (features.filter fun feature => feature.key == key && feature.occursAt site).map
            fun feature => (site.element, Finding.count feature.key) := by
      rw [List.filter_map, List.filter_filter]
      congr 2
      funext feature
      have hcount : (Finding.count feature.key == .count key) = (feature.key == key) := by
        rw [Bool.eq_iff_iff]
        simp
      simp [hcount]
    rw [hfilter, List.map_map]
    exact map_filter_of_key nodup_keys_features
      (fun feature hfeature => eq_of_beq (Bool.and_eq_true_iff.1 hfeature).1)
      (Analysis.placeOf project file site.element)
  rw [Analysis.placesOf, findings_rules h, List.filter_flatMap, List.map_flatMap, occurrences]
  simp only [hsite]
  induction file.tree.visits with
  | nil => rfl
  | cons site rest ih =>
    rw [List.flatMap_cons, ih, List.filter_cons]
    by_cases hoccurs : occursAt key site <;> simp [hoccurs]

/-- Where all numbers are integers the analysis of a file fails nowhere.  It counts the file and
its lines, and each counter takes the places at which its feature occurs. -/
theorem analyzeFile_eq (project : PlaceName) {file : ParsedFile} {s : Session}
    (hkeys : s.keys = catalog.keys) (h : ∀ e ∈ file.tree.values, e.HasIntegers) :
    ∃ counters, Analysis.analyzeFile rules project file s =
        ({ counters
           repositories := s.repositories
           files := s.files + 1
           lines := s.lines + file.lines.lineCount }, none) ∧
      counters.map (·.1) = catalog.keys ∧
      ∀ key, counters.lookup key =
        (s.counter? key).map (·.incrementAll (occurrences project file key)) := by
  have hrecordable : ∀ entry ∈ Analysis.findings (Rule.dispatchTable rules) file.tree,
      Analysis.IsRecordable (s.addTotals 0 1 file.lines.lineCount).keys entry := by
    intro entry hentry
    rw [findings_rules h] at hentry
    obtain ⟨site, hsite, hentry⟩ := List.mem_flatMap.1 hentry
    obtain ⟨feature, hfeature, rfl⟩ := List.mem_map.1 hentry
    refine ⟨feature.key, ?_, rfl, (h _ (Tree.mem_values_of_mem_visits hsite).1).start⟩
    have hkey : feature.key ∈ catalog.keys := perm_keys_features.mem_iff.1
      (List.mem_map_of_mem (List.mem_filter.1 hfeature).1)
    rwa [← hkeys] at hkey
  obtain ⟨t, ht, htkeys, htotals, hcounters⟩ :=
    Analysis.recordAll_of_recordable project file hrecordable
  obtain ⟨counters, repositories, files, lines⟩ := t
  obtain ⟨rfl, rfl, rfl⟩ := htotals
  refine ⟨counters, ?_, htkeys.trans hkeys, fun key => ?_⟩
  · rw [Analysis.analyzeFile, ht]
    simp [Session.addTotals]
  · rw [← placesOf_findings project h key]
    exact hcounters key

/-- A counter that takes the places at which its feature occurs counts them. -/
theorem exists_takes {project : PlaceName} {file : ParsedFile} {s : Session} {key : String}
    {after? : Option Counter} (hkey : key ∈ s.keys)
    (h : after? = (s.counter? key).map (·.incrementAll (occurrences project file key))) :
    ∃ before after, s.counter? key = some before ∧ after? = some after ∧
      after.count = before.count + file.tree.visits.countP (occursAt key) ∧
      before.Takes after project (occurrences project file key) := by
  obtain ⟨before, hbefore⟩ := Session.exists_counter_of_mem_keys hkey
  have hplaces : ∀ place ∈ occurrences project file key, place.project = project := by
    intro place hplace
    obtain ⟨site, -, rfl⟩ := List.mem_map.1 hplace
    rfl
  have htakes := before.takes_incrementAll hplaces
  refine ⟨before, _, hbefore, ?_, ?_, htakes⟩
  · rw [h, hbefore, Option.map_some]
  · rw [htakes.count, occurrences, List.length_map, List.countP_eq_length_filter]

/-- Where all numbers are integers the analysis of a file fails nowhere.  Each counter of the
catalog takes the places at which its feature occurs, the totals take the file and its lines,
and nothing else changes. -/
theorem analyzeFile_counts_features (project : PlaceName) {file : ParsedFile} {s : Session}
    (hkeys : s.keys = catalog.keys) (h : ∀ e ∈ file.tree.values, e.HasIntegers) :
    ∃ t, Analysis.analyzeFile rules project file s = (t, none) ∧
      t.keys = s.keys ∧
      t.repositories = s.repositories ∧
      t.files = s.files + 1 ∧
      t.lines = s.lines + file.lines.lineCount ∧
      ∀ key ∈ catalog.keys, ∃ before after,
        s.counter? key = some before ∧ t.counter? key = some after ∧
        after.count = before.count + file.tree.visits.countP (occursAt key) ∧
        before.Takes after project (occurrences project file key) := by
  obtain ⟨counters, ht, htkeys, hcounters⟩ := analyzeFile_eq project hkeys h
  refine ⟨_, ht, htkeys.trans hkeys.symm, rfl, rfl, rfl, fun key hkey => ?_⟩
  exact exists_takes (hkeys ▸ hkey) (hcounters key)

/-- A file with an inner class in a generic class and an object beside it. -/
def nestedFile : ParsedFile where
  tree :=
    .node ⟨.known .file, [("start", "0")]⟩
      [.node ⟨.known .classDeclaration, [("type_parameters", "1"), ("start", "0")]⟩
        [.node ⟨.known .body, [("start", "11")]⟩
          [.node ⟨.known .classDeclaration, [("inner", "true"), ("start", "15")]⟩ []]],
      .node ⟨.known .object, [("start", "31")]⟩ []]
  path := some "Nested.kt"
  lines := ⟨#[0, 13, 29, 31]⟩

/-- In the nested file the inner class is counted on its line, and so is the object. -/
theorem analyzeFile_nestedFile :
    (Session.ofSpecs catalog false).keys = catalog.keys ∧
      (∀ e ∈ nestedFile.tree.values, e.HasIntegers) ∧
      ∃ t, Analysis.analyzeFile rules (.text "p") nestedFile (.ofSpecs catalog false) =
          (t, none) ∧ t.files = 1 ∧
        (∃ inner, t.counter? "inner_classes_with_outer_type_parameters" = some inner ∧
          inner.count = 1 ∧ inner.usages.toList = [⟨.text "p", .text "Nested.kt", 2⟩]) ∧
        ∃ top, t.counter? "top_level_objects" = some top ∧ top.count = 1 := by
  have hkeys : (Session.ofSpecs catalog false).keys = catalog.keys := by decide
  have hintegers : ∀ e ∈ nestedFile.tree.values, e.HasIntegers := by decide
  obtain ⟨t, ht, -, -, hfiles, -, hcounters⟩ :=
    analyzeFile_counts_features (.text "p") hkeys hintegers
  refine ⟨hkeys, hintegers, t, ht, hfiles, ?_, ?_⟩
  · obtain ⟨before, after, hbefore, hafter, hcount, htakes⟩ :=
      hcounters "inner_classes_with_outer_type_parameters" (by decide)
    obtain rfl : before = .empty _ _ := (Option.some.inj hbefore).symm
    exact ⟨after, hafter, hcount.trans (by decide), htakes.usages.trans (by decide +kernel)⟩
  · obtain ⟨before, after, hbefore, hafter, hcount, -⟩ :=
      hcounters "top_level_objects" (by decide)
    obtain rfl : before = .empty _ _ := (Option.some.inj hbefore).symm
    exact ⟨after, hafter, hcount.trans (by decide)⟩

end Kotlin
end FeatureCensus
