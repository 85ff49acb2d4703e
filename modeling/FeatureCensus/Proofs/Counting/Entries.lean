import FeatureCensus.Proofs.Counting.Recording
import Mathlib

/-!
# Entries

An analysis enters occurrences in the counters of a session one by one, until it is done or
comes upon a finding that cannot be entered.  Its entries are the increments that it has
completed by then.  They depend on the file, the rules and the known keys alone, and the counters
of a session are those of the session before with the entries added.

Main results:

- Theorem {lit}`Counter.tallies_incrementAll`: a counter that takes places stays in step with
  them.
- Theorem {lit}`Session.increment?_eq`: an increment makes one entry, if its key is known.
- Theorem {lit}`Analysis.recordAll_eq`: recording makes the entries of the findings and fails where
  they end.
- Theorem {lit}`Analysis.counters_tally_entries`: after any analyses each counter is in step with
  the entries for its key.
-/

namespace FeatureCensus

open Syntax Text

/-! ## Counters -/

namespace Counter

/-- That a counter is in step with the places of its occurrences: it counts them, holds their
projects once each, and keeps the places themselves if it tracks. -/
structure Tallies (c : Counter) (places : List Usage) : Prop where
  count : c.count = places.length
  mem_projects : ∀ project, project ∈ c.projects ↔ ∃ place ∈ places, place.project = project
  nodup_projects : c.projects.Nodup
  usages : c.usages.toList = if c.tracks then places else []

namespace Tallies

variable {c : Counter} {places : List Usage}

theorem empty (label : String) (tracks : Bool) : (Counter.empty label tracks).Tallies [] where
  count := rfl
  mem_projects := by simp [Counter.empty]
  nodup_projects := List.nodup_nil
  usages := by cases tracks <;> rfl

/-- An increment keeps the counter in step. -/
theorem increment (h : c.Tallies places) (place : Usage) :
    (c.increment place).Tallies (places ++ [place]) where
  count := by rw [count_increment, h.count, List.length_append, List.length_singleton]
  mem_projects project := by
    rw [mem_projects_increment, h.mem_projects]
    simp [or_and_right, exists_or, eq_comm]
  nodup_projects := nodup_projects_increment h.nodup_projects place
  usages := by
    rw [tracks_increment]
    by_cases htracks : c.tracks = true
    · simp [usages_increment_of_tracks htracks, h.usages, htracks]
    · simp only [Bool.not_eq_true] at htracks
      simp [usages_increment_of_not_tracks htracks, h.usages, htracks]

/-- There are no more projects than occurrences. -/
theorem length_projects_le (h : c.Tallies places) : c.projects.length ≤ c.count := by
  have hsubset : c.projects ⊆ places.map (·.project) := by
    intro project hproject
    obtain ⟨place, hplace, rfl⟩ := (h.mem_projects project).1 hproject
    exact List.mem_map_of_mem hplace
  have hlength := (h.nodup_projects.subperm hsubset).length_le
  rwa [List.length_map, ← h.count] at hlength

/-- There are no projects just where there are no occurrences. -/
theorem projects_eq_nil_iff (h : c.Tallies places) : c.projects = [] ↔ c.count = 0 := by
  rw [h.count, List.length_eq_zero_iff]
  constructor
  · intro hprojects
    rw [List.eq_nil_iff_forall_not_mem]
    intro place hplace
    have hmem := (h.mem_projects place.project).2 ⟨place, hplace, rfl⟩
    rw [hprojects] at hmem
    cases hmem
  · rintro rfl
    rw [List.eq_nil_iff_forall_not_mem]
    intro project hproject
    obtain ⟨place, hplace, -⟩ := (h.mem_projects project).1 hproject
    cases hplace

end Tallies

/-- A counter that takes places stays in step with them. -/
theorem tallies_incrementAll {c : Counter} {before : List Usage} (h : c.Tallies before)
    (places : List Usage) : (c.incrementAll places).Tallies (before ++ places) := by
  induction places generalizing c before with
  | nil => simpa using h
  | cons place rest ih => simpa using ih (h.increment place)

@[simp]
theorem tracks_incrementAll (c : Counter) (places : List Usage) :
    (c.incrementAll places).tracks = c.tracks := by
  induction places generalizing c with
  | nil => rfl
  | cons place rest ih => rw [incrementAll_cons, ih, tracks_increment]

@[simp]
theorem label_incrementAll (c : Counter) (places : List Usage) :
    (c.incrementAll places).label = c.label := by
  induction places generalizing c with
  | nil => rfl
  | cons place rest ih => rw [incrementAll_cons, ih, label_increment]

theorem incrementAll_append (c : Counter) (first second : List Usage) :
    c.incrementAll (first ++ second) = (c.incrementAll first).incrementAll second :=
  List.foldl_append

end Counter

/-! ## Entries of a session -/

/-- A completed increment: the key of the counter, and the place of the occurrence. -/
structure Entry where
  key : String
  place : Usage
  deriving DecidableEq, Repr, Inhabited

namespace Entry

/-- The places of the entries for a key. -/
def placesFor (key : String) (entries : List Entry) : List Usage :=
  (entries.filter (·.key == key)).map (·.place)

@[simp]
theorem placesFor_append (key : String) (first second : List Entry) :
    placesFor key (first ++ second) = placesFor key first ++ placesFor key second := by
  simp [placesFor]

theorem placesFor_singleton (key : String) (entry : Entry) :
    placesFor key [entry] = if entry.key = key then [entry.place] else [] := by
  by_cases h : entry.key = key <;> simp [placesFor, h]

end Entry

namespace Session

open Entry

/-- A counter, beside its key, with the entries for that key added. -/
def takeEntries (entries : List Entry) (keyed : String × Counter) : String × Counter :=
  (keyed.1, keyed.2.incrementAll (placesFor keyed.1 entries))

/-- The session with entries added to its counters. -/
def enter (s : Session) (entries : List Entry) : Session :=
  { s with counters := s.counters.map (takeEntries entries) }

@[simp]
theorem keys_enter (s : Session) (entries : List Entry) : (s.enter entries).keys = s.keys := by
  simp [keys, enter, takeEntries, Function.comp_def]

@[simp]
theorem enter_nil (s : Session) : s.enter [] = s := by
  have hnothing : takeEntries [] = id := rfl
  simp [enter, hnothing]

theorem enter_append (s : Session) (first second : List Entry) :
    s.enter (first ++ second) = (s.enter first).enter second := by
  simp [enter, takeEntries, Counter.incrementAll_append, Function.comp_def]

/-- Entries for a key are added to its counter. -/
theorem counter?_enter (s : Session) (entries : List Entry) (key : String) :
    (s.enter entries).counter? key =
      (s.counter? key).map (·.incrementAll (placesFor key entries)) := by
  unfold enter counter?
  induction s.counters with
  | nil => rfl
  | cons first rest ih =>
    obtain ⟨k, c⟩ := first
    rw [List.map_cons, takeEntries]
    by_cases h : key = k
    · subst h
      simp
    · rw [Association.lookup_cons_of_ne h, Association.lookup_cons_of_ne h, ih]

/-- A counter of another key takes nothing. -/
theorem takeEntries_of_ne {entry : Entry} {keyed : String × Counter} (h : entry.key ≠ keyed.1) :
    takeEntries [entry] keyed = keyed := by
  simp [takeEntries, placesFor_singleton, h]

theorem updateCounter?_eq {counters : List (String × Counter)}
    (h : (counters.map (·.1)).Nodup) (entry : Entry) :
    updateCounter? (·.increment entry.place) entry.key counters =
      if entry.key ∈ counters.map (·.1) then some (counters.map (takeEntries [entry]))
      else none := by
  induction counters with
  | nil => rfl
  | cons first rest ih =>
    obtain ⟨k, c⟩ := first
    simp only [List.map_cons] at h ⊢
    obtain ⟨hnew, hrest⟩ := List.nodup_cons.1 h
    rw [updateCounter?, ih hrest]
    by_cases hk : entry.key = k
    · -- No later counter has the key of this one.
      have hlater : rest.map (takeEntries [entry]) = rest := by
        refine (List.map_congr_left fun later hlater => ?_).trans (List.map_id rest)
        exact takeEntries_of_ne fun heq =>
          hnew (List.mem_map.2 ⟨later, hlater, heq.symm.trans hk⟩)
      rw [if_pos (beq_iff_eq.2 hk), if_pos (by simp [hk]), hlater]
      simp [takeEntries, placesFor_singleton, hk]
    · rw [if_neg (by simpa using hk), takeEntries_of_ne hk]
      by_cases hmem : entry.key ∈ rest.map (·.1)
      · rw [if_pos hmem, if_pos (List.mem_cons_of_mem k hmem)]
        rfl
      · rw [if_neg hmem, if_neg (List.not_mem_cons_of_ne_of_not_mem hk hmem)]
        rfl

/-- An increment makes one entry, if its key is known. -/
theorem increment?_eq {s : Session} (h : s.keys.Nodup) (entry : Entry) :
    s.increment? entry.key entry.place =
      if entry.key ∈ s.keys then some (s.enter [entry]) else none := by
  rw [increment?, updateCounter?_eq h]
  unfold keys
  split <;> rfl

@[simp]
theorem counter?_addTotals (s : Session) (repositories files lines : Int) (key : String) :
    (s.addTotals repositories files lines).counter? key = s.counter? key := rfl

/-- A catalog that declares no key twice has a session, whose counters are empty. -/
theorem ofCatalog_eq_ok {catalog : Catalog} (h : catalog.keys.Nodup) (statsOnly : Bool) :
    ofCatalog catalog statsOnly = .ok (ofSpecs catalog statsOnly) := by
  have hdifferent : catalog.keys.Pairwise fun a b => (a == b) = false :=
    h.imp fun hne => beq_false_of_ne hne
  have hduplicates : duplicateKeys catalog = [] :=
    Repeats.repeatsAfter_eq_nil _ (fun _ _ => rfl) hdifferent
  rw [ofCatalog, hduplicates]
  rfl

/-- A catalog that has a session declares no key twice. -/
theorem nodup_keys_of_ofCatalog {catalog : Catalog} {statsOnly : Bool} {s : Session}
    (h : ofCatalog catalog statsOnly = .ok s) : catalog.keys.Nodup := by
  unfold ofCatalog at h
  split at h
  · rename_i hnone
    have hdifferent := (Repeats.of_repeatsAfter_eq_nil _ (List.isEmpty_iff.1 hnone)).2
    exact hdifferent.imp fun hne => ne_of_beq_false hne
  · cases h

/-- Each declaration has its empty counter in a new session. -/
theorem counter?_ofSpecs {catalog : Catalog} (h : catalog.keys.Nodup) (statsOnly : Bool)
    {spec : CounterSpec} (hspec : spec ∈ catalog) :
    (ofSpecs catalog statsOnly).counter? spec.key =
      some (.empty spec.label (spec.tracking.tracks statsOnly)) := by
  unfold counter? ofSpecs
  induction catalog with
  | nil => cases hspec
  | cons first rest ih =>
    obtain ⟨hnew, hrest⟩ := List.nodup_cons.1 h
    rw [List.map_cons]
    rcases List.mem_cons.1 hspec with rfl | hlater
    · exact Association.lookup_cons_self _ _ _
    · have hne : spec.key ≠ first.key := fun heq =>
        hnew (List.mem_map.2 ⟨spec, hlater, heq⟩)
      rw [Association.lookup_cons_of_ne hne]
      exact ih hrest hlater

end Session

/-! ## Recording -/

namespace Analysis

open Session

/-- The entry that a finding makes in counters with the given keys, unless it cannot be
entered. -/
def entryOf (keys : List String) (project : PlaceName) (file : ParsedFile) :
    Element × Finding → Except Fault Entry
  | (_, .malformed error) => .error (.malformedNumber error)
  | (e, .count key) =>
    match lineOf file.lines e with
    | .error error => .error (.malformedNumber error)
    | .ok line =>
      if key ∈ keys then .ok ⟨key, ⟨project, .ofText? file.path, line⟩⟩
      else .error (.unknownCounter key)

/-- An entry is made of a finding for its key, in its project. -/
theorem entryOf_eq_ok {keys : List String} {project : PlaceName} {file : ParsedFile}
    {finding : Element × Finding} {entry : Entry}
    (h : entryOf keys project file finding = .ok entry) :
    finding.2 = .count entry.key ∧ entry.place.project = project := by
  obtain ⟨e, finding⟩ := finding
  cases finding with
  | malformed error => cases h
  | count key =>
    simp only [entryOf] at h
    split at h
    · cases h
    · split at h
      · obtain rfl := Except.ok.inj h
        exact ⟨rfl, rfl⟩
      · cases h

/-- The entries that findings make, up to the first one that cannot be entered. -/
def entriesOf (keys : List String) (project : PlaceName) (file : ParsedFile) :
    List (Element × Finding) → List Entry
  | [] => []
  | finding :: rest =>
    match entryOf keys project file finding with
    | .error _ => []
    | .ok entry => entry :: entriesOf keys project file rest

/-- Why the first finding that cannot be entered cannot be, if there is one. -/
def faultOf? (keys : List String) (project : PlaceName) (file : ParsedFile) :
    List (Element × Finding) → Option Fault
  | [] => none
  | finding :: rest =>
    match entryOf keys project file finding with
    | .error fault => some fault
    | .ok _ => faultOf? keys project file rest

/-- Entries are made of the first findings. -/
theorem map_entriesOf_prefix (keys : List String) (project : PlaceName) (file : ParsedFile)
    (findings : List (Element × Finding)) :
    (entriesOf keys project file findings).map (Finding.count ·.key) <+: findings.map (·.2) := by
  induction findings with
  | nil => exact List.prefix_rfl
  | cons finding rest ih =>
    rw [entriesOf]
    cases hentry : entryOf keys project file finding with
    | error fault => exact List.nil_prefix
    | ok entry =>
      rw [List.map_cons, List.map_cons, List.cons_prefix_cons]
      exact ⟨(entryOf_eq_ok hentry).1.symm, ih⟩

theorem project_of_mem_entriesOf {keys : List String} {project : PlaceName} {file : ParsedFile}
    {findings : List (Element × Finding)} {entry : Entry}
    (h : entry ∈ entriesOf keys project file findings) : entry.place.project = project := by
  induction findings with
  | nil => cases h
  | cons finding rest ih =>
    rw [entriesOf] at h
    cases hfirst : entryOf keys project file finding with
    | error fault =>
      rw [hfirst] at h
      cases h
    | ok first =>
      rw [hfirst] at h
      rcases List.mem_cons.1 h with rfl | hlater
      · exact (entryOf_eq_ok hfirst).2
      · exact ih hlater

theorem record_eq (project : PlaceName) (file : ParsedFile) {s : Session} (h : s.keys.Nodup)
    (finding : Element × Finding) :
    record project file s finding =
      (entryOf s.keys project file finding).map fun entry => s.enter [entry] := by
  obtain ⟨e, finding⟩ := finding
  cases finding with
  | malformed error => rfl
  | count key =>
    simp only [record, entryOf]
    cases lineOf file.lines e with
    | error error => rfl
    | ok line =>
      have hincrement := increment?_eq h ⟨key, ⟨project, .ofText? file.path, line⟩⟩
      simp only at hincrement ⊢
      rw [hincrement]
      by_cases hkey : key ∈ s.keys
      · rw [if_pos hkey, if_pos hkey]
        rfl
      · rw [if_neg hkey, if_neg hkey]
        rfl

/-- Recording makes the entries of the findings and fails where they end. -/
theorem recordAll_eq (project : PlaceName) (file : ParsedFile) {s : Session} (h : s.keys.Nodup)
    (findings : List (Element × Finding)) :
    recordAll project file s findings =
      (s.enter (entriesOf s.keys project file findings),
        faultOf? s.keys project file findings) := by
  induction findings generalizing s with
  | nil => simp [recordAll, entriesOf, faultOf?]
  | cons finding rest ih =>
    rw [recordAll, record_eq project file h, entriesOf, faultOf?]
    cases entryOf s.keys project file finding with
    | error fault => simp [Except.map]
    | ok entry =>
      have hrest := @ih (s.enter [entry]) (by rwa [keys_enter])
      rw [keys_enter, ← enter_append] at hrest
      exact hrest

/-! ## Files -/

/-- A file of a project that is to be analyzed. -/
structure Task where
  project : PlaceName
  file : ParsedFile
  deriving Inhabited

namespace Task

/-- The entries that the analysis of a file makes. -/
def entries (rules : List Rule) (keys : List String) (task : Task) : List Entry :=
  entriesOf keys task.project task.file (findings (Rule.dispatchTable rules) task.file.tree)

/-- Why the analysis of a file ends early, if it does. -/
def fault? (rules : List Rule) (keys : List String) (task : Task) : Option Fault :=
  faultOf? keys task.project task.file (findings (Rule.dispatchTable rules) task.file.tree)

end Task

/-- The analysis of a file counts it and its lines and makes its entries. -/
theorem analyzeFile_eq (rules : List Rule) (task : Task) {s : Session} (h : s.keys.Nodup) :
    analyzeFile rules task.project task.file s =
      ((s.addTotals 0 1 task.file.lines.lineCount).enter (task.entries rules s.keys),
        task.fault? rules s.keys) :=
  recordAll_eq task.project task.file (s := s.addTotals 0 1 task.file.lines.lineCount) h _

/-- The session after the analyses of files one after the other, whether or not they end
early. -/
def analyzeAll (rules : List Rule) : Session → List Task → Session
  | s, [] => s
  | s, task :: rest => analyzeAll rules (analyzeFile rules task.project task.file s).1 rest

/-- The entries of all analyses, in their order. -/
def entriesOfAll (rules : List Rule) (keys : List String) (tasks : List Task) : List Entry :=
  tasks.flatMap (·.entries rules keys)

/-- The number of lines of all files. -/
def linesOf (tasks : List Task) : Int :=
  (tasks.map fun task => (task.file.lines.lineCount : Int)).sum

/-- Analyses count their files and lines and make their entries. -/
theorem analyzeAll_eq (rules : List Rule) {s : Session} (h : s.keys.Nodup) (tasks : List Task) :
    analyzeAll rules s tasks =
      (s.addTotals 0 tasks.length (linesOf tasks)).enter (entriesOfAll rules s.keys tasks) := by
  induction tasks generalizing s with
  | nil => simp [analyzeAll, entriesOfAll, linesOf, addTotals]
  | cons task rest ih =>
    rw [analyzeAll, analyzeFile_eq rules task h, ih (by rwa [keys_enter])]
    have hkeys : ((s.addTotals 0 1 task.file.lines.lineCount).enter
        (task.entries rules s.keys)).keys = s.keys := keys_enter _ _
    have hentries : entriesOfAll rules s.keys (task :: rest) =
        task.entries rules s.keys ++ entriesOfAll rules s.keys rest := List.flatMap_cons
    have htotals : (s.addTotals 0 1 task.file.lines.lineCount).addTotals 0 rest.length
        (linesOf rest) = s.addTotals 0 (task :: rest).length (linesOf (task :: rest)) := by
      simp only [addTotals, linesOf, List.map_cons, List.sum_cons, List.length_cons,
        Session.mk.injEq, true_and]
      omega
    rw [hkeys, hentries, enter_append, ← htotals]
    rfl

/-! ## Sessions of a catalog -/

/-- After analyses a new session has the counters of its catalog. -/
theorem keys_analyzeAll (catalog : Catalog) (h : catalog.keys.Nodup) (statsOnly : Bool)
    (rules : List Rule) (tasks : List Task) :
    (analyzeAll rules (.ofSpecs catalog statsOnly) tasks).keys = catalog.keys := by
  have hkeys := keys_ofCatalog (ofCatalog_eq_ok h statsOnly)
  rw [analyzeAll_eq rules (hkeys ▸ h), keys_enter]
  exact hkeys

/-- After analyses each declared counter is in step with the entries for its key. -/
theorem exists_tallies {catalog : Catalog} (h : catalog.keys.Nodup) (statsOnly : Bool)
    (rules : List Rule) (tasks : List Task) {spec : CounterSpec} (hspec : spec ∈ catalog) :
    ∃ c, (analyzeAll rules (.ofSpecs catalog statsOnly) tasks).counter? spec.key = some c ∧
      c.tracks = spec.tracking.tracks statsOnly ∧
      c.Tallies (Entry.placesFor spec.key (entriesOfAll rules catalog.keys tasks)) := by
  have hkeys := keys_ofCatalog (ofCatalog_eq_ok h statsOnly)
  have htallies := Counter.tallies_incrementAll
    (Counter.Tallies.empty spec.label (spec.tracking.tracks statsOnly))
    (Entry.placesFor spec.key (entriesOfAll rules catalog.keys tasks))
  refine ⟨_, ?_, Counter.tracks_incrementAll _ _, htallies⟩
  rw [analyzeAll_eq rules (hkeys ▸ h), counter?_enter, hkeys, counter?_addTotals,
    counter?_ofSpecs h statsOnly hspec]
  rfl

/-- After any analyses, also ones that end early, each counter of a catalog is in step with the
entries for its key: it counts them, holds just their projects, and keeps their places in order
if it tracks.  A further analysis ends early just where its own entries do. -/
theorem counters_tally_entries {catalog : Catalog} (h : catalog.keys.Nodup) (statsOnly : Bool)
    (rules : List Rule) (tasks : List Task) :
    ∃ s, Session.ofCatalog catalog statsOnly = .ok s ∧
      let t := analyzeAll rules s tasks
      t.keys = catalog.keys ∧
      (∀ task : Task, (analyzeFile rules task.project task.file t).2 =
        task.fault? rules catalog.keys) ∧
      ∀ spec ∈ catalog, ∃ c, t.counter? spec.key = some c ∧
        let places := Entry.placesFor spec.key (entriesOfAll rules catalog.keys tasks)
        c.tracks = spec.tracking.tracks statsOnly ∧
        c.count = places.length ∧
        (∀ project, project ∈ c.projects ↔ ∃ place ∈ places, place.project = project) ∧
        c.projects.Nodup ∧
        c.projects.length ≤ c.count ∧
        (c.projects = [] ↔ c.count = 0) ∧
        c.usages.toList = if c.tracks then places else [] := by
  have hkeys := keys_analyzeAll catalog h statsOnly rules tasks
  refine ⟨_, ofCatalog_eq_ok h statsOnly, hkeys, fun task => ?_, fun spec hspec => ?_⟩
  · rw [analyzeFile_eq rules task (hkeys ▸ h), hkeys]
  · obtain ⟨c, hc, htracks, htallies⟩ := exists_tallies h statsOnly rules tasks hspec
    exact ⟨c, hc, htracks, htallies.count, htallies.mem_projects, htallies.nodup_projects,
      htallies.length_projects_le, htallies.projects_eq_nil_iff, htallies.usages⟩

/-- A catalog of one counter that tracks and one that does not. -/
def smallCatalog : Catalog :=
  [⟨"kept", "Kept", .always⟩, ⟨"passing", "Passing", .never⟩]

/-- Rules of which the second one adds to an unknown counter between two known ones. -/
def faultyRules : List Rule :=
  [.counting "files" (Kind.name .file) ["kept", "passing"],
    .counting "classes" (Kind.name .classDeclaration) ["kept", "unknown", "passing"]]

/-- A file with a class that begins as written. -/
def fileWithClass (start : String) : ParsedFile where
  tree :=
    .node ⟨.known .file, [("start", "0")]⟩ [.node ⟨.known .classDeclaration, [("start", start)]⟩ []]
  path := some "A.kt"
  lines := ⟨#[0, 3]⟩

/-- Two analyses that end early, one at the unknown counter and one at a malformed number, leave
the counters in step. -/
theorem counters_tally_faulty_entries :
    ∃ s, Session.ofCatalog smallCatalog false = .ok s ∧
      let t := analyzeAll faultyRules s
        [⟨.text "p", fileWithClass "4"⟩, ⟨.text "q", fileWithClass "four"⟩]
      (analyzeFile faultyRules (.text "p") (fileWithClass "4") t).2 =
        some (.unknownCounter "unknown") ∧
      (∃ kept, t.counter? "kept" = some kept ∧ kept.count = 3 ∧ kept.usages.toList =
        [⟨.text "p", .text "A.kt", 1⟩, ⟨.text "p", .text "A.kt", 2⟩,
          ⟨.text "q", .text "A.kt", 1⟩]) ∧
      ∃ passing, t.counter? "passing" = some passing ∧ passing.count = 2 ∧
        passing.usages.toList = [] := by
  obtain ⟨s, hs, -, hfault, hcounters⟩ := @counters_tally_entries smallCatalog (by decide) false
    faultyRules [⟨.text "p", fileWithClass "4"⟩, ⟨.text "q", fileWithClass "four"⟩]
  refine ⟨s, hs, (hfault ⟨.text "p", fileWithClass "4"⟩).trans (by decide +kernel), ?_, ?_⟩
  · obtain ⟨kept, hkept, htracks, hcount, -, -, -, -, husages⟩ :=
      hcounters ⟨"kept", "Kept", .always⟩ (by decide)
    rw [htracks] at husages
    exact ⟨kept, hkept, hcount.trans (by decide +kernel), husages.trans (by decide +kernel)⟩
  · obtain ⟨passing, hpassing, htracks, hcount, -, -, -, -, husages⟩ :=
      hcounters ⟨"passing", "Passing", .never⟩ (by decide)
    rw [htracks] at husages
    exact ⟨passing, hpassing, hcount.trans (by decide +kernel), husages⟩

end Analysis
end FeatureCensus
