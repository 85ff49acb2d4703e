import FeatureCensus.Proofs.Counting.Entries

/-!
# Merging sessions

What the analysis of a file adds to a session depends on the file, the rules and the known keys,
but not on what the session holds already.  So files that are analyzed one after the other give
the merge of the sessions that each part of them gives by itself, and their order matters only to
the order of tracked places.

Main results:

- Theorem {lit}`Counter.merge_incrementAll`: places that are added to one of two counters are
  added to their merge.
- Theorem {lit}`Analysis.analyzeAll_append`: files in two parts give the merge of the sessions of
  the parts.
- Theorem {lit}`Analysis.agree_of_perm`: files in another order give the same numbers and
  projects.
- Theorem {lit}`Analysis.analyses_merge`: so analyses without a fault merge, and their order does
  not matter.
-/

namespace FeatureCensus

attribute [ext] Counter Session

/-! ## Counters -/

namespace Counter

/-- The counter of the occurrences of two counters of one feature, those of the first one before
those of the second one. -/
def merge (c d : Counter) : Counter :=
  { c with
    count := c.count + d.count
    projects := c.projects ++ d.projects.filter fun project => !c.projects.contains project
    usages := c.usages ++ d.usages }

/-- A counter without occurrences adds nothing. -/
theorem merge_empty (c : Counter) (label : String) (tracks : Bool) :
    c.merge (empty label tracks) = c := by
  simp [merge, empty]

theorem projects_merge_increment (c d : Counter) (place : Usage) :
    (c.merge (d.increment place)).projects = ((c.merge d).increment place).projects := by
  by_cases hsecond : place.project ∈ d.projects
  · -- The project is known to one of the counters, and so to their merge.
    have hmerged : place.project ∈ (c.merge d).projects := by
      by_cases hfirst : place.project ∈ c.projects
      · simp [merge, hfirst]
      · simp [merge, hfirst, hsecond]
    have hkept : ∀ e : Counter, place.project ∈ e.projects →
        (e.increment place).projects = e.projects := by
      intro e he
      simp [increment, he]
    rw [hkept _ hmerged, merge, merge, hkept _ hsecond]
  · by_cases hfirst : place.project ∈ c.projects
    · simp [merge, increment, hfirst, hsecond]
    · simp [merge, increment, hfirst, hsecond]

/-- An occurrence that is added to the second counter is added to the merge. -/
theorem merge_increment {c d : Counter} (h : d.tracks = c.tracks) (place : Usage) :
    c.merge (d.increment place) = (c.merge d).increment place := by
  apply Counter.ext
  · rfl
  · rfl
  · rfl
  · exact projects_merge_increment c d place
  · by_cases htracks : c.tracks = true
    · simp [merge, increment, h, htracks]
    · simp [merge, increment, h, htracks]

/-- Places that are added to the second counter are added to the merge. -/
theorem merge_incrementAll {c d : Counter} (h : d.tracks = c.tracks) (places : List Usage) :
    c.merge (d.incrementAll places) = (c.merge d).incrementAll places := by
  induction places generalizing d with
  | nil => rfl
  | cons place rest ih =>
    rw [incrementAll_cons, incrementAll_cons, ← merge_increment h place]
    exact ih h

end Counter

/-! ## Sessions -/

namespace Session

/-- The session of the occurrences and totals of two sessions with the same counters. -/
def merge (s t : Session) : Session where
  counters := s.counters.zipWith (fun first second => (first.1, first.2.merge second.2)) t.counters
  repositories := s.repositories + t.repositories
  files := s.files + t.files
  lines := s.lines + t.lines

theorem counters_enter_ofSpecs (catalog : Catalog) (statsOnly : Bool) (entries : List Entry) :
    ((ofSpecs catalog statsOnly).enter entries).counters =
      catalog.map fun spec =>
        (spec.key, (Counter.empty spec.label (spec.tracking.tracks statsOnly)).incrementAll
          (Entry.placesFor spec.key entries)) := by
  simp [enter, ofSpecs, takeEntries, Function.comp_def]

/-- Entries in two parts give the merge of what each part gives to a new session. -/
theorem enter_append_ofSpecs (catalog : Catalog) (statsOnly : Bool) (first second : List Entry) :
    (ofSpecs catalog statsOnly).enter (first ++ second) =
      ((ofSpecs catalog statsOnly).enter first).merge
        ((ofSpecs catalog statsOnly).enter second) := by
  apply Session.ext
  · rw [merge, counters_enter_ofSpecs, counters_enter_ofSpecs, counters_enter_ofSpecs,
      List.zipWith_map, List.zipWith_self]
    refine List.map_congr_left fun spec _ => ?_
    have htracks : (Counter.empty spec.label (spec.tracking.tracks statsOnly)).tracks =
        ((Counter.empty spec.label (spec.tracking.tracks statsOnly)).incrementAll
          (Entry.placesFor spec.key first)).tracks := (Counter.tracks_incrementAll _ _).symm
    rw [Counter.merge_incrementAll htracks, Counter.merge_empty, Entry.placesFor_append,
      Counter.incrementAll_append]
  · rfl
  · rfl
  · rfl

theorem merge_addTotals (s t : Session) (files lines moreFiles moreLines : Int) :
    (s.merge t).addTotals 0 (files + moreFiles) (lines + moreLines) =
      (s.addTotals 0 files lines).merge (t.addTotals 0 moreFiles moreLines) := by
  apply Session.ext
  · rfl
  · simp [merge, addTotals]
  · simp only [merge, addTotals]
    omega
  · simp only [merge, addTotals]
    omega

theorem addTotals_enter (s : Session) (repositories files lines : Int) (entries : List Entry) :
    (s.addTotals repositories files lines).enter entries =
      (s.enter entries).addTotals repositories files lines := rfl

end Session

/-! ## Analyses -/

namespace Analysis

open Session Syntax

/-- Analyzes files one after the other, unless the analysis of one of them ends early. -/
def analyze? (rules : List Rule) : Session → List Task → Except Fault Session
  | s, [] => .ok s
  | s, task :: rest =>
    match analyzeFile rules task.project task.file s with
    | (_, some fault) => .error fault
    | (reached, none) => analyze? rules reached rest

/-- Files are analyzed to the end where none of them has a fault. -/
theorem analyze?_eq_ok_iff {rules : List Rule} {s t : Session} (h : s.keys.Nodup)
    {tasks : List Task} :
    analyze? rules s tasks = .ok t ↔
      (∀ task ∈ tasks, task.fault? rules s.keys = none) ∧ t = analyzeAll rules s tasks := by
  induction tasks generalizing s with
  | nil => simp [analyze?, analyzeAll, eq_comm]
  | cons task rest ih =>
    have hkeys : ((s.addTotals 0 1 task.file.lines.lineCount).enter
        (task.entries rules s.keys)).keys = s.keys := keys_enter _ _
    rw [analyze?, analyzeAll, analyzeFile_eq rules task h]
    cases hfault : task.fault? rules s.keys with
    | some fault => simp [hfault]
    | none =>
      simp only [ih (hkeys ▸ h), hkeys, List.forall_mem_cons, hfault, true_and]

theorem linesOf_append (first second : List Task) :
    linesOf (first ++ second) = linesOf first + linesOf second := by
  simp [linesOf]

/-- Files in two parts give the merge of the sessions of the parts. -/
theorem analyzeAll_append {catalog : Catalog} (h : catalog.keys.Nodup) (statsOnly : Bool)
    (rules : List Rule) (first second : List Task) :
    analyzeAll rules (.ofSpecs catalog statsOnly) (first ++ second) =
      (analyzeAll rules (.ofSpecs catalog statsOnly) first).merge
        (analyzeAll rules (.ofSpecs catalog statsOnly) second) := by
  have hkeys : (Session.ofSpecs catalog statsOnly).keys = catalog.keys :=
    keys_ofCatalog (ofCatalog_eq_ok h statsOnly)
  have hnodup : (Session.ofSpecs catalog statsOnly).keys.Nodup := hkeys ▸ h
  have hentries : entriesOfAll rules catalog.keys (first ++ second) =
      entriesOfAll rules catalog.keys first ++ entriesOfAll rules catalog.keys second :=
    List.flatMap_append
  rw [analyzeAll_eq rules hnodup, analyzeAll_eq rules hnodup, analyzeAll_eq rules hnodup, hkeys,
    hentries, addTotals_enter, addTotals_enter, addTotals_enter, enter_append_ofSpecs,
    List.length_append, Nat.cast_add, linesOf_append, merge_addTotals]

/-! ## Order -/

/-- The places that a file by itself adds to the counter of a key in a new session. -/
def Task.places (rules : List Rule) (catalog : Catalog) (statsOnly : Bool) (key : String)
    (task : Task) : List Usage :=
  (((analyzeFile rules task.project task.file (.ofSpecs catalog statsOnly)).1.counter? key).map
    (·.usages.toList)).getD []

/-- A counter that tracks keeps the places of the entries for its key, any other one none. -/
theorem usages_analyzeAll {catalog : Catalog} (h : catalog.keys.Nodup) (statsOnly : Bool)
    (rules : List Rule) (tasks : List Task) {spec : CounterSpec} (hspec : spec ∈ catalog)
    {c : Counter}
    (hc : (analyzeAll rules (.ofSpecs catalog statsOnly) tasks).counter? spec.key = some c) :
    c.usages.toList = if spec.tracking.tracks statsOnly then
      Entry.placesFor spec.key (entriesOfAll rules catalog.keys tasks) else [] := by
  obtain ⟨d, hd, htracks, htallies⟩ := exists_tallies h statsOnly rules tasks hspec
  obtain rfl : c = d := Option.some.inj (hc.symm.trans hd)
  rw [htallies.usages, htracks]

theorem Task.places_eq {catalog : Catalog} (h : catalog.keys.Nodup) (statsOnly : Bool)
    (rules : List Rule) {spec : CounterSpec} (hspec : spec ∈ catalog) (task : Task) :
    task.places rules catalog statsOnly spec.key = if spec.tracking.tracks statsOnly then
      Entry.placesFor spec.key (task.entries rules catalog.keys) else [] := by
  obtain ⟨c, hc, -⟩ := exists_tallies h statsOnly rules [task] hspec
  have husages := usages_analyzeAll h statsOnly rules [task] hspec hc
  have hentries : entriesOfAll rules catalog.keys [task] = task.entries rules catalog.keys := by
    simp [entriesOfAll]
  rw [analyzeAll, analyzeAll] at hc
  rw [places, hc, Option.map_some, Option.getD_some, husages, hentries]

/-- The tracked places are those that each file adds by itself, file after file. -/
theorem usages_eq_flatMap {catalog : Catalog} (h : catalog.keys.Nodup) (statsOnly : Bool)
    (rules : List Rule) (tasks : List Task) {spec : CounterSpec} (hspec : spec ∈ catalog)
    {c : Counter}
    (hc : (analyzeAll rules (.ofSpecs catalog statsOnly) tasks).counter? spec.key = some c) :
    c.usages.toList = tasks.flatMap (Task.places rules catalog statsOnly spec.key) := by
  have hplaces : tasks.flatMap (Task.places rules catalog statsOnly spec.key) =
      tasks.flatMap fun task => if spec.tracking.tracks statsOnly then
        Entry.placesFor spec.key (task.entries rules catalog.keys) else [] :=
    List.flatMap_congr fun task _ => Task.places_eq h statsOnly rules hspec task
  rw [usages_analyzeAll h statsOnly rules tasks hspec hc, hplaces]
  by_cases htracks : spec.tracking.tracks statsOnly = true
  · simp only [htracks, if_true, Entry.placesFor, entriesOfAll, List.filter_flatMap,
      List.map_flatMap]
  · simp [htracks]

theorem linesOf_of_perm {tasks others : List Task} (hperm : tasks.Perm others) :
    linesOf tasks = linesOf others :=
  (hperm.map _).sum_eq

/-- Files in another order give the same totals, and counters of the same numbers and
projects. -/
theorem agree_of_perm {catalog : Catalog} (h : catalog.keys.Nodup) (statsOnly : Bool)
    (rules : List Rule) {tasks others : List Task} (hperm : tasks.Perm others)
    {spec : CounterSpec} (hspec : spec ∈ catalog) :
    ∃ c d,
      (analyzeAll rules (.ofSpecs catalog statsOnly) tasks).counter? spec.key = some c ∧
      (analyzeAll rules (.ofSpecs catalog statsOnly) others).counter? spec.key = some d ∧
      d.count = c.count ∧ d.projects.Perm c.projects := by
  obtain ⟨c, hc, -, hfirst⟩ := exists_tallies h statsOnly rules tasks hspec
  obtain ⟨d, hd, -, hsecond⟩ := exists_tallies h statsOnly rules others hspec
  have hplaces : (Entry.placesFor spec.key (entriesOfAll rules catalog.keys tasks)).Perm
      (Entry.placesFor spec.key (entriesOfAll rules catalog.keys others)) :=
    ((hperm.flatMap_right _).filter _).map _
  refine ⟨c, d, hc, hd, ?_, ?_⟩
  · rw [hsecond.count, hfirst.count, hplaces.length_eq]
  · rw [List.perm_ext_iff_of_nodup hsecond.nodup_projects hfirst.nodup_projects]
    intro project
    rw [hsecond.mem_projects, hfirst.mem_projects]
    constructor
    · rintro ⟨place, hplace, hproject⟩
      exact ⟨place, hplaces.mem_iff.2 hplace, hproject⟩
    · rintro ⟨place, hplace, hproject⟩
      exact ⟨place, hplaces.mem_iff.1 hplace, hproject⟩

/-- Files whose analyses have no fault, in two parts, give the merge of what each part gives to a
new session.  In another order they give the same totals and, for each counter, the same number
and the same projects; its tracked places are those that each file adds by itself, file after
file. -/
theorem analyses_merge {catalog : Catalog} (h : catalog.keys.Nodup) (statsOnly : Bool)
    (rules : List Rule) :
    ∃ fresh, Session.ofCatalog catalog statsOnly = .ok fresh ∧
      (∀ first second a b, analyze? rules fresh first = .ok a →
        analyze? rules fresh second = .ok b →
        analyze? rules fresh (first ++ second) = .ok (a.merge b)) ∧
      ∀ tasks others s, tasks.Perm others → analyze? rules fresh tasks = .ok s →
        ∃ t, analyze? rules fresh others = .ok t ∧ t.keys = s.keys ∧
          (t.repositories = s.repositories ∧ t.files = s.files ∧ t.lines = s.lines) ∧
          ∀ spec ∈ catalog, ∃ c d,
            s.counter? spec.key = some c ∧ t.counter? spec.key = some d ∧
            d.count = c.count ∧ d.projects.Perm c.projects ∧
            c.usages.toList = tasks.flatMap (Task.places rules catalog statsOnly spec.key) ∧
            d.usages.toList = others.flatMap (Task.places rules catalog statsOnly spec.key) := by
  have hkeys : (Session.ofSpecs catalog statsOnly).keys = catalog.keys :=
    keys_ofCatalog (ofCatalog_eq_ok h statsOnly)
  have hnodup : (Session.ofSpecs catalog statsOnly).keys.Nodup := hkeys ▸ h
  refine ⟨_, ofCatalog_eq_ok h statsOnly, ?_, ?_⟩
  · intro first second a b hfirst hsecond
    obtain ⟨hnofirst, rfl⟩ := (analyze?_eq_ok_iff hnodup).1 hfirst
    obtain ⟨hnosecond, rfl⟩ := (analyze?_eq_ok_iff hnodup).1 hsecond
    rw [analyze?_eq_ok_iff hnodup, analyzeAll_append h]
    refine ⟨fun task htask => ?_, rfl⟩
    rcases List.mem_append.1 htask with hin | hin
    · exact hnofirst task hin
    · exact hnosecond task hin
  · intro tasks others s hperm hs
    obtain ⟨hnofault, rfl⟩ := (analyze?_eq_ok_iff hnodup).1 hs
    have hothers : analyze? rules (.ofSpecs catalog statsOnly) others =
        .ok (analyzeAll rules (.ofSpecs catalog statsOnly) others) := by
      rw [analyze?_eq_ok_iff hnodup]
      exact ⟨fun task htask => hnofault task (hperm.mem_iff.2 htask), rfl⟩
    refine ⟨_, hothers, ?_, ?_, fun spec hspec => ?_⟩
    · rw [keys_analyzeAll catalog h, keys_analyzeAll catalog h]
    · rw [analyzeAll_eq rules hnodup, analyzeAll_eq rules hnodup, linesOf_of_perm hperm,
        hperm.length_eq]
      exact ⟨rfl, rfl, rfl⟩
    · obtain ⟨c, d, hc, hd, hcount, hprojects⟩ := agree_of_perm h statsOnly rules hperm hspec
      exact ⟨c, d, hc, hd, hcount, hprojects,
        usages_eq_flatMap h statsOnly rules tasks hspec hc,
        usages_eq_flatMap h statsOnly rules others hspec hd⟩

/-- Rules that count files and classes. -/
def plainRules : List Rule :=
  [.counting "files" (Kind.name .file) ["kept", "passing"],
    .counting "classes" (Kind.name .classDeclaration) ["kept"]]

/-- Two files with classes, which begin on different lines, merge in one order and give their
places in the other one. -/
theorem analyses_merge_plainRules :
    ∃ fresh a b t kept, Session.ofCatalog smallCatalog false = .ok fresh ∧
      analyze? plainRules fresh [⟨.text "p", fileWithClass "4"⟩] = .ok a ∧
      analyze? plainRules fresh [⟨.text "q", fileWithClass "0"⟩] = .ok b ∧
      analyze? plainRules fresh
        [⟨.text "p", fileWithClass "4"⟩, ⟨.text "q", fileWithClass "0"⟩] = .ok (a.merge b) ∧
      analyze? plainRules fresh
        [⟨.text "q", fileWithClass "0"⟩, ⟨.text "p", fileWithClass "4"⟩] = .ok t ∧
      t.files = 2 ∧ t.counter? "kept" = some kept ∧ kept.count = 4 ∧
      kept.usages.toList =
        [⟨.text "q", .text "A.kt", 1⟩, ⟨.text "q", .text "A.kt", 1⟩,
          ⟨.text "p", .text "A.kt", 1⟩, ⟨.text "p", .text "A.kt", 2⟩] := by
  obtain ⟨fresh, hfresh, hmerge, horder⟩ :=
    @analyses_merge smallCatalog (by decide) false plainRules
  obtain rfl : Session.ofSpecs smallCatalog false = fresh := Except.ok.inj hfresh
  have hnodup : (Session.ofSpecs smallCatalog false).keys.Nodup := by decide
  have hfirst : analyze? plainRules (.ofSpecs smallCatalog false)
      [⟨.text "p", fileWithClass "4"⟩] = .ok _ :=
    (analyze?_eq_ok_iff hnodup).2 ⟨by simpa using (by decide +kernel), rfl⟩
  have hsecond : analyze? plainRules (.ofSpecs smallCatalog false)
      [⟨.text "q", fileWithClass "0"⟩] = .ok _ :=
    (analyze?_eq_ok_iff hnodup).2 ⟨by simpa using (by decide +kernel), rfl⟩
  have hboth := hmerge _ _ _ _ hfirst hsecond
  obtain ⟨t, ht, -, ⟨-, hfiles, -⟩, hcounters⟩ := horder _
    [⟨.text "q", fileWithClass "0"⟩, ⟨.text "p", fileWithClass "4"⟩] _ (.swap _ _ []) hboth
  obtain ⟨merged, kept, hmerged, hkept, hcount, -, -, husages⟩ :=
    hcounters ⟨"kept", "Kept", .always⟩ (by decide)
  have hfour : merged.count = 4 := by
    have hevaluated := congrArg (Option.map (·.count)) hmerged
    exact Option.some.inj (hevaluated.symm.trans (by decide +kernel))
  exact ⟨_, _, _, t, kept, rfl, hfirst, hsecond, hboth, ht, hfiles, hkept,
    hcount.trans hfour, husages.trans (by decide +kernel)⟩

end Analysis
end FeatureCensus
