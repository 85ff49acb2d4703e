import FeatureCensus.Proofs.Analysis.Calls
import FeatureCensus.Proofs.Text.Fields
import FeatureCensus.Results.Report

/-!
# What reports tell

A report is read back line by line.  The line of a counter begins with its label, and behind that
the number of its occurrences and that of its projects stand between blanks; in the line of a place
the number stands behind the last colon.  Where a counter tracks, it has as many places as
occurrences, so its first line tells how many lines it has.  Two sessions of one catalog that
analyses have reached thus agree in all numbers if they have the same report.

Main results:

- Theorem {lit}`Report.numbers_of_headline_eq`: the numbers in the line of a counter.
- Theorem {lit}`Report.lines_of_map_usageLine_eq`: the numbers in the lines of places.
- Theorem {lit}`Report.agrees_of_flatMap_eq`: counters with the same lines agree.
- Theorem {lit}`Session.IsReached.exists_entries`: the counters of a session that is reached.
- Theorem {lit}`Report.render_tells_numbers`: sessions with the same report agree in all numbers.
-/

namespace FeatureCensus

open Text

/-! ## Counters with all their places -/

namespace Counter

/-- That a counter has the places of all its occurrences if it tracks, and none if it does not. -/
def IsComplete (c : Counter) : Prop :=
  c.usages.size = if c.tracks then c.count else 0

theorem Tallies.isComplete {c : Counter} {places : List Usage} (h : c.Tallies places) :
    c.IsComplete := by
  rw [IsComplete, ← Array.length_toList, h.usages, h.count]
  split
  · rfl
  · rfl

end Counter

/-! ## Sessions that are reached -/

namespace Session

/-- That a session is what calls of analyzers leave of a new session of a catalog, whatever their
rules are and whether or not they fail. -/
inductive IsReached (catalog : Catalog) (statsOnly : Bool) : Session → Prop where
  | new {s : Session} (h : ofCatalog catalog statsOnly = .ok s) : IsReached catalog statsOnly s
  | run {s : Session} (h : IsReached catalog statsOnly s) (analyzer : Analyzer)
      (call : Analyzer.Call) : IsReached catalog statsOnly (analyzer.run s call).1

/-- The counter of a declaration after entries. -/
def counterAfter (statsOnly : Bool) (entries : List Entry) (spec : CounterSpec) : Counter :=
  (Counter.empty spec.label (spec.tracking.tracks statsOnly)).incrementAll
    (Entry.placesFor spec.key entries)

theorem tallies_counterAfter (statsOnly : Bool) (entries : List Entry) (spec : CounterSpec) :
    (counterAfter statsOnly entries spec).Tallies (Entry.placesFor spec.key entries) :=
  Counter.tallies_incrementAll (Counter.Tallies.empty _ _) _

@[simp]
theorem label_counterAfter (statsOnly : Bool) (entries : List Entry) (spec : CounterSpec) :
    (counterAfter statsOnly entries spec).label = spec.label :=
  Counter.label_incrementAll _ _

@[simp]
theorem tracks_counterAfter (statsOnly : Bool) (entries : List Entry) (spec : CounterSpec) :
    (counterAfter statsOnly entries spec).tracks = spec.tracking.tracks statsOnly :=
  Counter.tracks_incrementAll _ _

variable {catalog : Catalog} {statsOnly : Bool} {s : Session}

/-- A session that is reached has gained something over a new one. -/
theorem IsReached.exists_gain (h : IsReached catalog statsOnly s) :
    catalog.keys.Nodup ∧ ∃ g, s = (ofSpecs catalog statsOnly).gain g := by
  induction h with
  | new h =>
    have hnodup := nodup_keys_of_ofCatalog h
    rw [ofCatalog_eq_ok hnodup] at h
    obtain rfl := Except.ok.inj h
    exact ⟨hnodup, {}, (gain_none _).symm⟩
  | run _ analyzer call ih =>
    obtain ⟨hnodup, g, rfl⟩ := ih
    obtain ⟨later, failure?, hrun⟩ := analyzer.exists_gain_run hnodup call
    have hkeys := keys_ofCatalog (ofCatalog_eq_ok hnodup statsOnly)
    rw [hrun _ ((keys_gain _ g).trans hkeys), gain_gain]
    exact ⟨hnodup, g.followedBy later, rfl⟩

/-- A session that is reached has the counter of each declaration after some entries. -/
theorem IsReached.exists_entries (h : IsReached catalog statsOnly s) :
    ∃ entries, s.counters = catalog.map (fun spec =>
        (spec.key, counterAfter statsOnly entries spec)) ∧
      ∀ spec ∈ catalog, s.counter? spec.key = some (counterAfter statsOnly entries spec) := by
  obtain ⟨hnodup, g, rfl⟩ := h.exists_gain
  refine ⟨g.entries, ?_, fun spec hspec => ?_⟩
  · rw [gain, enter, addTotals, ofSpecs, List.map_map]
    rfl
  · rw [counter?_gain, counter?_ofSpecs hnodup statsOnly hspec]
    rfl

/-- The number of occurrences in counters that track. -/
def trackedOccurrences (s : Session) : Nat :=
  ((s.counters.filter (·.2.tracks)).map (·.2.count)).sum

/-- That no label and no tracked place has a line feed in what reports say about it. -/
def HasNoLineFeeds (s : Session) : Prop :=
  ∀ entry ∈ s.counters, '\n' ∉ entry.2.label.toList ∧
    ∀ usage ∈ entry.2.usages, '\n' ∉ usage.project.display.toList ∧
      '\n' ∉ usage.path.display.toList

instance (s : Session) : Decidable s.HasNoLineFeeds :=
  inferInstanceAs (Decidable (∀ _ ∈ _, _))

end Session

namespace Report

/-! ## Numbers in lines -/

/-- The line of a counter. -/
def headline (c : Counter) : String :=
  c.label ++ ": " ++ toString c.count ++ " in " ++ toString c.projects.length ++ " projects"

/-- A counter has its line and one for each place. -/
theorem counterLines_eq (c : Counter) :
    counterLines c = headline c :: c.usages.toList.map usageLine := rfl

/-- The numbers of a counter stand between blanks. -/
theorem fields_numbers (count projects : Nat) :
    fields (· == ' ') (toString count ++ " in " ++ toString projects ++ " projects").toList =
      [(toString count).toList, "in".toList, (toString projects).toList, "projects".toList] := by
  have hblanks : (toString count ++ " in " ++ toString projects ++ " projects").toList =
      (toString count).toList ++ ' ' :: ("in".toList ++ ' ' ::
        ((toString projects).toList ++ ' ' :: "projects".toList)) := by
    simp
  rw [hblanks, fields_append_cons (not_mem_toString rfl count),
    fields_append_cons (by decide), fields_append_cons (not_mem_toString rfl projects),
    fields_of_not_mem (by decide)]

/-- The line of a counter tells its numbers to whoever knows its label. -/
theorem numbers_of_headline_eq {c d : Counter} (hlabel : c.label = d.label)
    (h : headline c = headline d) :
    c.count = d.count ∧ c.projects.length = d.projects.length := by
  have hnumbers : toString c.count ++ " in " ++ toString c.projects.length ++ " projects" =
      toString d.count ++ " in " ++ toString d.projects.length ++ " projects" := by
    apply (String.append_right_inj (c.label ++ ": ")).1
    rw [headline, headline, ← hlabel] at h
    simpa only [String.append_assoc] using h
  have hfields := congrArg (fun text => fields (· == ' ') text.toList) hnumbers
  simp only [fields_numbers, List.cons.injEq, String.toList_inj, and_true, true_and] at hfields
  exact ⟨Nat.repr_inj.1 hfields.1, Nat.repr_inj.1 hfields.2⟩

/-- The number of a place stands behind the last colon. -/
theorem getLast?_fields_usageLine (usage : Usage) :
    (fields (· == ':') (usageLine usage).toList).getLast? =
      some (toString usage.line).toList := by
  have hcolon : (usageLine usage).toList =
      ("  Project: " ++ usage.project.display ++ "; path: " ++ usage.path.display).toList ++
        ':' :: (toString usage.line).toList := by
    simp [usageLine]
  have hline : ':' ∉ (toString usage.line).toList :=
    not_mem_toString_of_ne_minus rfl (by decide) usage.line
  rw [hcolon, fields_append_separator rfl, fields_of_not_mem hline, List.getLast?_concat]

/-- The lines of places tell their numbers. -/
theorem lines_of_map_usageLine_eq {places others : List Usage}
    (h : places.map usageLine = others.map usageLine) :
    places.map (·.line) = others.map (·.line) := by
  have hnumeral : Function.Injective fun i : Int => some (toString i).toList := by
    intro i j hij
    exact Int.repr_inj.1 (String.toList_inj.1 (Option.some.inj hij))
  apply List.map_injective_iff.2 hnumeral
  have hlast := congrArg (List.map fun text => (fields (· == ':') text.toList).getLast?) h
  simpa only [List.map_map, Function.comp_def, getLast?_fields_usageLine] using hlast

/-! ## Counters -/

/-- That two counters agree in all numbers that reports tell. -/
structure Agrees (c d : Counter) : Prop where
  count : c.count = d.count
  projects : c.projects.length = d.projects.length
  lines : c.usages.toList.map (·.line) = d.usages.toList.map (·.line)

variable {c d : Counter}

/-- Behind the lines of a counter, whose number its first line tells, others begin. -/
theorem agrees_of_append_eq (hlabel : c.label = d.label) (htracks : c.tracks = d.tracks)
    (hc : c.IsComplete) (hd : d.IsComplete) {rest more : List String}
    (h : counterLines c ++ rest = counterLines d ++ more) : Agrees c d ∧ rest = more := by
  rw [counterLines_eq, counterLines_eq, List.cons_append, List.cons_append] at h
  obtain ⟨hhead, hbehind⟩ := List.cons.inj h
  obtain ⟨hcount, hprojects⟩ := numbers_of_headline_eq hlabel hhead
  -- Blocks have no mark at their ends, but equal first lines make them equally long.
  have hsize : c.usages.size = d.usages.size := by
    rw [hc, hd, hcount, htracks]
  obtain ⟨husages, hrest⟩ := List.append_inj hbehind (by simpa using hsize)
  exact ⟨⟨hcount, hprojects, lines_of_map_usageLine_eq husages⟩, hrest⟩

/-- Counters with the same lines agree, if their labels and what they track are known. -/
theorem agrees_of_flatMap_eq {α : Type} {items : List α} {f g : α → Counter}
    (hlabel : ∀ a, (f a).label = (g a).label) (htracks : ∀ a, (f a).tracks = (g a).tracks)
    (hf : ∀ a, (f a).IsComplete) (hg : ∀ a, (g a).IsComplete)
    (h : items.flatMap (fun a => counterLines (f a)) =
      items.flatMap fun a => counterLines (g a)) : ∀ a ∈ items, Agrees (f a) (g a) := by
  induction items with
  | nil =>
    intro a ha
    cases ha
  | cons first rest ih =>
    rw [List.flatMap_cons, List.flatMap_cons] at h
    obtain ⟨hfirst, hrest⟩ :=
      agrees_of_append_eq (hlabel first) (htracks first) (hf first) (hg first) h
    exact List.forall_mem_cons.2 ⟨hfirst, ih hrest⟩

/-- Counters have as many lines as there are counters and tracked occurrences. -/
theorem length_flatMap_counterLines {counters : List (String × Counter)}
    (h : ∀ entry ∈ counters, entry.2.IsComplete) :
    (counters.flatMap fun entry => counterLines entry.2).length =
      counters.length + ((counters.filter (·.2.tracks)).map (·.2.count)).sum := by
  induction counters with
  | nil => rfl
  | cons entry rest ih =>
    obtain ⟨hentry, hrest⟩ := List.forall_mem_cons.1 h
    rw [Counter.IsComplete] at hentry
    rw [List.flatMap_cons, List.length_append, ih hrest, length_counterLines, hentry,
      List.length_cons]
    by_cases htracks : entry.2.tracks = true
    · rw [if_pos htracks, List.filter_cons, if_pos htracks, List.map_cons, List.sum_cons]
      omega
    · rw [if_neg htracks, List.filter_cons, if_neg htracks]
      omega

/-! ## Reports -/

variable {catalog : Catalog} {statsOnly : Bool} {s t : Session}

/-- No line of a report is broken if no text in it has a line feed. -/
theorem not_mem_of_mem_lines (h : s.HasNoLineFeeds) {line : String} (hline : line ∈ lines s) :
    '\n' ∉ line.toList := by
  have hnat : ∀ n, '\n' ∉ Nat.toDigits 10 n := by
    intro n
    simpa using not_mem_toString (c := '\n') rfl n
  have hint : ∀ i : Int, '\n' ∉ i.repr.toList := fun i =>
    not_mem_toString_of_ne_minus rfl (by decide) i
  rw [lines, List.mem_append] at hline
  rcases hline with htotal | hcounter
  · simp only [List.mem_cons, List.not_mem_nil, or_false] at htotal
    rcases htotal with rfl | rfl | rfl
    · simp [hint]
    · simp [hint]
    · simp [hint]
  · obtain ⟨entry, hentry, hmem⟩ := List.mem_flatMap.1 hcounter
    obtain ⟨hlabel, husages⟩ := h entry hentry
    rw [counterLines_eq, List.mem_cons] at hmem
    rcases hmem with rfl | hplace
    · simp [headline, hlabel, hnat]
    · obtain ⟨usage, husage, rfl⟩ := List.mem_map.1 hplace
      obtain ⟨hproject, hpath⟩ := husages usage (Array.mem_toList_iff.1 husage)
      simp [usageLine, hproject, hpath, hint]

/-- The lines of a report stand between its line feeds. -/
theorem fields_render (h : s.HasNoLineFeeds) :
    fields (· == '\n') (render s).toList = (lines s).map String.toList := by
  have hne : lines s ≠ [] := List.cons_ne_nil _ _
  exact fields_intercalate rfl hne fun line hline => not_mem_of_mem_lines h hline

theorem lines_eq_of_render_eq (hs : s.HasNoLineFeeds) (ht : t.HasNoLineFeeds)
    (h : render s = render t) : lines s = lines t := by
  have hfields := fields_render hs
  rw [h, fields_render ht] at hfields
  exact (List.map_injective_iff.2 (fun _ _ => String.toList_injective) hfields).symm

/-- The report of a session that is reached has three lines for the totals, one for each counter,
and one for each tracked occurrence. -/
theorem length_fields_render (hs : s.IsReached catalog statsOnly) (h : s.HasNoLineFeeds) :
    (fields (· == '\n') (render s).toList).length =
      3 + catalog.length + s.trackedOccurrences := by
  obtain ⟨entries, hcounters, -⟩ := hs.exists_entries
  have hcomplete : ∀ entry ∈ s.counters, entry.2.IsComplete := by
    intro entry hentry
    rw [hcounters] at hentry
    obtain ⟨spec, -, rfl⟩ := List.mem_map.1 hentry
    exact (Session.tallies_counterAfter statsOnly entries spec).isComplete
  have hlength : s.counters.length = catalog.length := by rw [hcounters, List.length_map]
  rw [fields_render h, List.length_map, lines, List.length_append,
    length_flatMap_counterLines hcomplete, hlength, Session.trackedOccurrences]
  simp only [List.length_cons, List.length_nil]
  omega

/-- If two sessions that analyses have reached from one catalog have the same report, they have the
same totals, and each counter has in both the same number of occurrences and of projects, each of
which it holds once, and the same line numbers of places in the same order.  The report of each has
three lines, one for each counter, and one for each tracked occurrence. -/
theorem render_tells_numbers (hs : s.IsReached catalog statsOnly)
    (ht : t.IsReached catalog statsOnly) (hsplain : s.HasNoLineFeeds)
    (htplain : t.HasNoLineFeeds) :
    (render s = render t →
      (s.repositories = t.repositories ∧ s.files = t.files ∧ s.lines = t.lines) ∧
      ∀ spec ∈ catalog, ∃ c d, s.counter? spec.key = some c ∧ t.counter? spec.key = some d ∧
        c.count = d.count ∧
        c.projects.Nodup ∧ d.projects.Nodup ∧ c.projects.length = d.projects.length ∧
        c.usages.toList.map (·.line) = d.usages.toList.map (·.line)) ∧
      ∀ u ∈ [s, t], (fields (· == '\n') (render u).toList).length =
        3 + catalog.length + u.trackedOccurrences := by
  constructor
  · intro h
    obtain ⟨entries, hscounters, hsfind⟩ := hs.exists_entries
    obtain ⟨others, htcounters, htfind⟩ := ht.exists_entries
    have hlines := lines_eq_of_render_eq hsplain htplain h
    rw [lines, lines, hscounters, htcounters, List.flatMap_map, List.flatMap_map] at hlines
    obtain ⟨htotals, hcounters⟩ := List.append_inj hlines rfl
    have hagrees := agrees_of_flatMap_eq (by simp) (by simp)
      (fun spec => (Session.tallies_counterAfter statsOnly entries spec).isComplete)
      (fun spec => (Session.tallies_counterAfter statsOnly others spec).isComplete) hcounters
    refine ⟨?_, fun spec hspec => ?_⟩
    · simp only [List.cons.injEq, String.append_right_inj, and_true] at htotals
      obtain ⟨hrepositories, hfiles, hlineTotal⟩ := htotals
      exact ⟨Int.repr_inj.1 hrepositories, Int.repr_inj.1 hfiles, Int.repr_inj.1 hlineTotal⟩
    · have hspec' := hagrees spec hspec
      exact ⟨_, _, hsfind spec hspec, htfind spec hspec, hspec'.count,
        (Session.tallies_counterAfter statsOnly entries spec).nodup_projects,
        (Session.tallies_counterAfter statsOnly others spec).nodup_projects,
        hspec'.projects, hspec'.lines⟩
  · intro u hu
    simp only [List.mem_cons, List.not_mem_nil, or_false] at hu
    rcases hu with rfl | rfl
    · exact length_fields_render hs hsplain
    · exact length_fields_render ht htplain

/-- An analyzer that adds every file to one counter of a small catalog. -/
def fileAnalyzer (key : String) : Analyzer where
  catalog := Analysis.smallCatalog
  rules := [.counting "files" Syntax.Kind.file.name [key]]

/-- A session with one tracked place and, in another project, an occurrence that is not tracked. -/
def passedSession (project : String) : Session :=
  ((fileAnalyzer "passing").run
    ((fileAnalyzer "kept").run (.ofSpecs Analysis.smallCatalog false)
      (.file (.text "p") (Analysis.fileWithClass "4"))).1
    (.file (.text project) (Analysis.fileWithClass "4"))).1

theorem isReached_passedSession (project : String) :
    (passedSession project).IsReached Analysis.smallCatalog false :=
  .run (.run (.new (Session.ofCatalog_eq_ok (by decide) false)) _ _) _ _

/-- Sessions with the same report that differ in a project that the report does not name. -/
theorem render_tells_numbers_passedSession :
    passedSession "q" ≠ passedSession "r" ∧
      render (passedSession "q") = render (passedSession "r") ∧
      (passedSession "q").lines = (passedSession "r").lines ∧
      (∃ c d, (passedSession "q").counter? "passing" = some c ∧
        (passedSession "r").counter? "passing" = some d ∧ c.count = d.count ∧
        c.projects.length = d.projects.length) ∧
      (fields (· == '\n') (render (passedSession "r")).toList).length = 6 := by
  have hrender : render (passedSession "q") = render (passedSession "r") := by decide +kernel
  have hplain : ∀ project ∈ ["q", "r"], (passedSession project).HasNoLineFeeds := by
    decide +kernel
  obtain ⟨hnumbers, hlengths⟩ := render_tells_numbers (isReached_passedSession "q")
    (isReached_passedSession "r") (hplain "q" (by decide)) (hplain "r" (by decide))
  obtain ⟨⟨-, -, hlines⟩, hcounters⟩ := hnumbers hrender
  obtain ⟨c, d, hc, hd, hcount, -, -, hprojects, -⟩ :=
    hcounters ⟨"passing", "Passing", .never⟩ (by decide)
  refine ⟨by decide +kernel, hrender, hlines, ⟨c, d, hc, hd, hcount, hprojects⟩, ?_⟩
  rw [hlengths _ (List.mem_cons_of_mem _ List.mem_cons_self)]
  decide +kernel

end Report
end FeatureCensus
